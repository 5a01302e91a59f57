import VitaConnect.Ftp.Bounds

/-! # Endpoints as six decimal numbers (`cmd_PASV_func`, `cmd_PORT_func`)

The reply to `PASV` names an endpoint by the bytes of its network-order fields, and `PORT` puts the
fields together again: the address through a dotted text, the port as a number of the machine that
`sceNetHtons` turns round.
-/
namespace VitaConnect.Ftp
open CString Program
set_option autoImplicit false

/-! ## Dotted addresses -/

theorem scanOctet_natDec_append {tail : CStr} {n : ℕ} (h : EndsNumber tail) (hn : n < 256) :
    scanOctet (natDec n ++ tail) = some (n, tail) := by
  have hlen : (natDec n).length ≤ 3 := natDec_length_le (by decide) (by omega)
  rw [scanOctet, takeWhile_number_append (isNumber_natDec n) h,
    dropWhile_number_append (isNumber_natDec n) h, decValue_natDec]
  simp [natDec_ne_nil]
  omega

theorem scanOctets_joined (ns : List ℕ) (hns : ∀ n ∈ ns, n < 256) :
    scanOctets ns.length (joined 46 ns) = some ns := by
  induction ns with
  | nil => simp [scanOctets, joined]
  | cons n ns ih =>
    have hn := hns n List.mem_cons_self
    cases ns with
    | nil =>
      have hscan : scanOctet (natDec n) = some (n, []) := by
        have happend := scanOctet_natDec_append (by simp [EndsNumber] : EndsNumber []) hn
        rwa [List.append_nil] at happend
      simp [joined_singleton, scanOctets, hscan]
    | cons m ns =>
      have hsep : EndsNumber (46 :: joined 46 (m :: ns)) := by
        rintro b ⟨⟩
        rfl
      have hrest := ih fun k hk => hns k (List.mem_cons_of_mem n hk)
      rw [joined_cons_cons, List.length_cons, scanOctets, scanOctet_natDec_append hsep hn]
      simpa using hrest

/-! ## The fields in memory order -/

theorem and_255 (n : ℕ) : n &&& 255 = n % 256 := Nat.and_two_pow_sub_one_eq_mod n 8

theorem addrOfOctets_bytes (addr : UInt32) :
    addrOfOctets [(addr &&& 0xFF).toNat, (addr >>> 8 &&& 0xFF).toNat, (addr >>> 16 &&& 0xFF).toNat,
      (addr >>> 24 &&& 0xFF).toNat] = addr := by
  have hlt := addr.toNat_lt
  have hsum : addr.toNat % 256 + 256 * (addr.toNat / 256 % 256 + 256 * (addr.toNat / 65536 % 256 +
      256 * (addr.toNat / 16777216 % 256 + 256 * 0))) = addr.toNat := by omega
  simp only [addrOfOctets, List.foldr_cons, List.foldr_nil, UInt32.toNat_and,
    UInt32.toNat_shiftRight, UInt32.reduceToNat, Nat.reduceMod, and_255, Nat.shiftRight_eq_div_pow,
    Nat.reducePow, hsum]
  exact UInt32.ofNat_toNat

theorem sceNetHtons_ofInt {hi lo : ℕ} (hhi : hi < 256) (hlo : lo < 256) :
    (sceNetHtons (UInt16.ofInt ((hi : ℤ) + (lo : ℤ) * 256))).toNat = hi * 256 + lo := by
  have hval : (UInt16.ofInt ((hi : ℤ) + (lo : ℤ) * 256)).toNat = lo * 256 + hi := by
    have hcast : (((hi : ℤ) + (lo : ℤ) * 256) % 2 ^ 16).toNat = lo * 256 + hi := by omega
    rw [UInt16.ofInt, hcast, UInt16.toNat_ofNat_of_lt' (by simp only [UInt16.size]; omega)]
  have hor := Nat.shiftLeft_add_eq_or_of_lt (i := 8) hlo hi
  rw [sceNetHtons, UInt16.toNat_or, UInt16.toNat_shiftLeft, UInt16.toNat_shiftRight, hval]
  simp only [UInt16.reduceToNat, Nat.reduceMod, Nat.shiftLeft_eq, Nat.shiftRight_eq_div_pow,
    Nat.reducePow] at hor ⊢
  have h1 : (lo * 256 + hi) * 256 % 65536 = hi * 256 := by omega
  have h2 : (lo * 256 + hi) / 256 = lo := by omega
  rw [h1, h2, hor]

theorem sceNetHtons_bytes (port : UInt16) :
    sceNetHtons (UInt16.ofInt (((port >>> 8 &&& 0xFF).toNat : ℤ) + ((port &&& 0xFF).toNat : ℤ) * 256))
      = port := by
  have hlt := port.toNat_lt
  have hhi : (port >>> 8 &&& 0xFF).toNat = port.toNat / 256 := by
    simp only [UInt16.toNat_and, UInt16.toNat_shiftRight, UInt16.reduceToNat, Nat.reduceMod, and_255,
      Nat.shiftRight_eq_div_pow, Nat.reducePow]
    omega
  have hlo : (port &&& 0xFF).toNat = port.toNat % 256 := by
    simp only [UInt16.toNat_and, UInt16.reduceToNat, and_255]
  apply UInt16.toNat_inj.mp
  rw [hhi, hlo, sceNetHtons_ofInt (by omega) (by omega)]
  omega

theorem pasvNumbers_lt (addr : UInt32) (port : UInt16) : ∀ n ∈ pasvNumbers addr port, n < 256 := by
  have hand : ∀ n : ℕ, n &&& 255 < 256 := fun n => Nat.lt_succ_of_le Nat.and_le_right
  simp [pasvNumbers, hand]

/-! ## From the numbers to the fields -/

section Fields
variable {args : CStr} {ns : List ℕ} (env : Env)

theorem portNumbers_of_scan (hscan : scanInts 6 args = ns.map Int.ofNat) {i : ℕ}
    (hi : i < ns.length) : portNumbers env args i = (ns.getD i 0 : ℕ) := by
  rw [portNumbers, hscan, List.getD_eq_getElem?_getD, List.getElem?_map,
    List.getElem?_eq_getElem hi, List.getD_eq_getElem?_getD, List.getElem?_eq_getElem hi]
  rfl

theorem portIpStr_of_scan (hscan : scanInts 6 args = ns.map Int.ofNat) (hlen : ns.length = 6) :
    portIpStr env args = joined 46 (ns.take 4) := by
  have hnumbers : ∀ i ∈ List.range 4, intDec (portNumbers env args i) = natDec (ns.getD i 0) := by
    intro i hi
    have hlt := List.mem_range.mp hi
    rw [portNumbers_of_scan env hscan (by omega), intDec_natCast]
  rw [portIpStr, List.map_congr_left hnumbers]
  match ns, hlen with
  | [_, _, _, _, _, _], _ => rfl

theorem portIpStr_fits (hscan : scanInts 6 args = ns.map Int.ofNat) (hlen : ns.length = 6)
    (hns : ∀ n ∈ ns, n < 256) : (portIpStr env args).length < Buffer.ipStr.size := by
  rw [portIpStr_of_scan env hscan hlen]
  have hne : ns.take 4 ≠ [] := by
    intro hnil
    have := congrArg List.length hnil
    rw [List.length_take, hlen] at this
    cases this
  have hjoined := joined_length_lt 46 hne fun n hn => (hns n (List.mem_of_mem_take hn)).trans (by decide)
  rw [List.length_take, hlen] at hjoined
  exact hjoined

theorem sceNetInetPton_of_scan (hscan : scanInts 6 args = ns.map Int.ofNat) (hlen : ns.length = 6)
    (hns : ∀ n ∈ ns, n < 256) :
    sceNetInetPton (portIpStr env args) = some (addrOfOctets (ns.take 4)) := by
  have hoctets := scanOctets_joined (ns.take 4) fun n hn => hns n (List.mem_of_mem_take hn)
  rw [List.length_take, hlen] at hoctets
  rw [portIpStr_of_scan env hscan hlen, sceNetInetPton]
  exact congrArg (Option.map addrOfOctets) hoctets

theorem portDataPort_of_scan (hscan : scanInts 6 args = ns.map Int.ofNat) (hlen : ns.length = 6) :
    portDataPort env args = UInt16.ofInt ((ns.getD 5 0 : ℕ) + (ns.getD 4 0 : ℕ) * 256) := by
  rw [portDataPort, portNumbers_of_scan env hscan (by omega), portNumbers_of_scan env hscan (by omega)]

end Fields

theorem scanInts_pasvNumbers {tail : CStr} (h : EndsNumber tail) (addr : UInt32) (port : UInt16) :
    scanInts 6 (joined 44 (pasvNumbers addr port) ++ tail) =
      (pasvNumbers addr port).map Int.ofNat :=
  scanInts_joined h (pasvNumbers addr port) fun n hn =>
    (pasvNumbers_lt addr port n hn).trans (by decide)

/-! ## From the reply to the argument -/

/-- The text between the parentheses of a 227 reply. -/
def hostPort (reply : CStr) : CStr := ((reply.dropWhile (· ≠ 40)).tail).takeWhile (· ≠ 41)

theorem hostPort_pasvReply (addr : UInt32) (port : UInt16) :
    hostPort (pasvReply addr port) = joined 44 (pasvNumbers addr port) := by
  have hclose : ∀ b ∈ joined 44 (pasvNumbers addr port), b ≠ 41 := by
    rintro b hb rfl
    rcases mem_joined hb with h | h
    · exact absurd h (by decide)
    · exact absurd h.1 (by decide)
  have hopen : (pasvReply addr port).dropWhile (· ≠ 40) =
      40 :: (joined 44 (pasvNumbers addr port) ++ (bytes ")" ++ eol)) := by
    rw [pasvReply, List.append_assoc, List.append_assoc]
    rfl
  rw [hostPort, hopen, List.tail_cons, List.takeWhile_append_of_pos (by simpa using hclose)]
  exact List.append_nil _

def Session.withArgs (s : Session) (args : CStr) : Session :=
  { s with client := { s.client with recvCmdArgs := args } }

/-- The numbers of a 227 reply, given to `PORT` with whatever follows them on the line, are the
endpoint of the reply. -/
theorem cmdPortFunc_of_pasvReply (env env' : Env) (s s' : Session) {tail : CStr}
    (htail : EndsNumber tail) :
    ∃ reply u, ctrlMsgs (finalState (cmdPasvFunc env s)).trace = ctrlMsgs s.trace ++ [reply] ∧
      cmdPortFunc env' (s'.withArgs (hostPort reply ++ tail)) = .ok ⟨⟩ u ∧
      u.client.dataSockaddr = ⟨env.vitaAddr, env.sceNetGetsockname⟩ := by
  have hreply := hostPort_pasvReply env.vitaAddr env.sceNetGetsockname
  have hscan := scanInts_pasvNumbers htail env.vitaAddr env.sceNetGetsockname
  have haddr : addrOfOctets ((pasvNumbers env.vitaAddr env.sceNetGetsockname).take 4) = env.vitaAddr :=
    addrOfOctets_bytes env.vitaAddr
  have hport := sceNetHtons_bytes env.sceNetGetsockname
  have hip : (portIpStr env' (s'.withArgs (hostPort (pasvReply env.vitaAddr env.sceNetGetsockname) ++
      tail)).client.recvCmdArgs).length < Buffer.ipStr.size := by
    rw [Session.withArgs, hreply]
    exact portIpStr_fits env' hscan rfl (pasvNumbers_lt env.vitaAddr env.sceNetGetsockname)
  refine ⟨pasvReply env.vitaAddr env.sceNetGetsockname, _, ?_, cmdPortFunc_apply env' hip, ?_⟩
  · simp [cmdPasvFunc_apply]
  · simp only [Session.withArgs, hreply, portDataPort_of_scan env' hscan rfl, Option.getD_some,
      sceNetInetPton_of_scan env' hscan rfl (pasvNumbers_lt env.vitaAddr env.sceNetGetsockname), haddr]
    exact congrArg (SockaddrIn.mk _) hport

/-- The line `PORT h1,h2,h3,h4,p1,p2` ends in CR LF. -/
theorem cmdPortFunc_of_pasvReply_line :
    ∃ reply u, ctrlMsgs (finalState (cmdPasvFunc { calmEnv with
        vitaAddr := 0x0501A8C0, sceNetGetsockname := 0xB004 } newSession)).trace =
          ctrlMsgs newSession.trace ++ [reply] ∧
      cmdPortFunc calmEnv (newSession.withArgs (hostPort reply ++ eol)) = .ok ⟨⟩ u ∧
      u.client.dataSockaddr = ⟨0x0501A8C0, 0xB004⟩ :=
  cmdPortFunc_of_pasvReply
    { calmEnv with vitaAddr := 0x0501A8C0, sceNetGetsockname := 0xB004 } calmEnv newSession newSession
    (by rintro b ⟨⟩; rfl : EndsNumber eol)

end VitaConnect.Ftp
