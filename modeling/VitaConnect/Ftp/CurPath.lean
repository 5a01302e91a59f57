import VitaConnect.Ftp.Session

/-! # The current path over a session

`CurPathInv` is what every command keeps of `cur_path`: it fits its array, starts with a slash, and
is `/` or has a second slash. `dirUp` and CWD rely on it (their `strrchr` finds a slash, their
`strcat` has room) and re-establish it; `snprintf` cuts a path behind its second slash, so the cut
cannot break it.
-/
namespace VitaConnect.Ftp
open CString Program
set_option autoImplicit false

structure CurPathInv (path : CStr) : Prop where
  fits : path.length < pathMax
  absolute : path.head? = some slash
  deep : path = [slash] ∨ 2 ≤ path.count slash
  /-- No CR, LF or TAB has come through `sscanf`. -/
  clean : ∀ b ∈ path, b ∉ argStops

theorem curPathInv_root : CurPathInv [slash] :=
  ⟨by decide, rfl, Or.inl rfl, by simp [slash, argStops]⟩

/-! ## Adding the slash -/

theorem addSlash_of_deep {p : CStr} (h : 2 ≤ p.count slash) : addSlash p = p := by
  rw [addSlash, if_neg]
  intro h0
  have := ((strrchr_eq_zero_iff p slash).mp h0).2
  omega

theorem addSlash_length_le (p : CStr) : (addSlash p).length ≤ p.length + 1 := by
  unfold addSlash
  split <;> simp

theorem mem_addSlash {p : CStr} {b : Byte} (h : b ∈ addSlash p) : b ∈ p ∨ b = slash := by
  unfold addSlash at h
  split at h
  · simpa using h
  · exact Or.inl h

theorem addSlash_head {p : CStr} (h : p.head? = some slash) : (addSlash p).head? = some slash := by
  unfold addSlash
  split
  · cases p with
    | nil => simp at h
    | cons b p => simpa using h
  · exact h

theorem addSlash_deep {p : CStr} (h : p.head? = some slash) : 2 ≤ (addSlash p).count slash := by
  unfold addSlash
  split
  · next h0 =>
    have hc := ((strrchr_eq_zero_iff p slash).mp h0).2
    rw [List.count_append, hc]
    decide
  · next h0 =>
    have hpos : 0 < p.count slash := List.count_pos_iff.mpr (List.mem_of_mem_head? h)
    have hne : p.count slash ≠ 1 := fun hc => h0 ((strrchr_eq_zero_iff p slash).mpr ⟨h, hc⟩)
    omega

/-! ## `dir_up` -/

def parentPath (path : CStr) : CStr :=
  if path.length = 1 ∨ pathIsAtRoot path then [slash]
  else addSlash (path.take ((strrchr path slash).getD 0))

theorem take_strrchr_absolute {p : CStr} (hp : CurPathInv p) (hroot : pathIsAtRoot p = false)
    {i : ℕ} (hi : strrchr p slash = some i) :
    (p.take i).head? = some slash ∧ (p.take i).length + 1 ≤ p.length := by
  obtain ⟨a, b, rfl, rfl, hb⟩ := strrchr_eq_some hi
  have hcount : 2 ≤ (a ++ slash :: b).count slash := by
    rcases hp.deep with heq | hdeep
    · rw [heq] at hroot
      exact absurd hroot (by decide)
    · exact hdeep
  have ha : a ≠ [] := by
    rintro rfl
    simp [List.count_eq_zero.mpr hb] at hcount
  obtain ⟨x, a, rfl⟩ := List.exists_cons_of_ne_nil ha
  have := hp.absolute
  simp only [List.cons_append, List.head?_cons] at this
  simp [this]

theorem dirUp_apply {p : CStr} (hp : CurPathInv p) (s : Session) :
    dirUp p s = .ok (parentPath p) s := by
  unfold dirUp parentPath
  by_cases h1 : p.length = 1
  · simp [h1, pure_apply]
  · cases hroot : pathIsAtRoot p with
    | true => simp [h1, pure_apply]
    | false =>
      obtain ⟨i, hi⟩ := strrchr_isSome (List.mem_of_mem_head? hp.absolute)
      have hlen : (addSlash (p.take i)).length < Buffer.curPath.size := by
        have h2 := (take_strrchr_absolute hp hroot hi).2
        have h3 := addSlash_length_le (p.take i)
        have h4 := hp.fits
        simp only [Buffer.size]
        omega
      simp [h1, hi, bind_apply, store_ok hlen, pure_apply]

theorem curPathInv_parent {p : CStr} (hp : CurPathInv p) : CurPathInv (parentPath p) := by
  unfold parentPath
  split
  · exact curPathInv_root
  · next h =>
    obtain ⟨-, hroot⟩ := not_or.mp h
    obtain ⟨i, hi⟩ := strrchr_isSome (List.mem_of_mem_head? hp.absolute)
    obtain ⟨habs, hlen⟩ := take_strrchr_absolute hp (by simpa using hroot) hi
    have hle := addSlash_length_le (p.take i)
    have hfits := hp.fits
    rw [hi, Option.getD_some]
    refine ⟨by omega, addSlash_head habs, Or.inr (addSlash_deep habs), fun b hb => ?_⟩
    rcases mem_addSlash hb with hb | rfl
    · exact hp.clean b (List.mem_of_mem_take hb)
    · decide

/-! ## CWD -/

theorem snprintf_append_deep {p q : CStr} (hp : CurPathInv p) (h : 2 ≤ p.count slash) :
    2 ≤ (snprintf pathMax (p ++ q)).count slash ∧ (snprintf pathMax (p ++ q)).head? = some slash := by
  have hfits := hp.fits
  have htake : snprintf pathMax (p ++ q) = p ++ q.take (pathMax - 1 - p.length) := by
    rw [snprintf, List.take_append, List.take_of_length_le (by omega)]
  rw [htake]
  constructor
  · rw [List.count_append]
    omega
  · rw [List.head?_append, hp.absolute]
    rfl

theorem cwdJoin_absolute {p c : CStr} (hp : CurPathInv p) (hc : c.length ≤ 511) :
    (cwdJoin p c).head? = some slash ∧ (addSlash (cwdJoin p c)).length < pathMax := by
  have hcut : ∀ q : CStr, (snprintf pathMax q).length ≤ 1023 := fun q => snprintf_length_le pathMax q
  unfold cwdJoin
  split_ifs with habs hroot
  · refine ⟨habs, ?_⟩
    have := addSlash_length_le c
    simp only [pathMax]
    omega
  · rcases hp.deep with rfl | hdeep
    · have hshort : snprintf pathMax ([slash] ++ c) = [slash] ++ c :=
        snprintf_of_fits (by simp [pathMax]; omega)
      have := addSlash_length_le ([slash] ++ c)
      rw [hshort]
      refine ⟨rfl, ?_⟩
      simp only [List.length_append, List.length_singleton] at this
      simp only [pathMax]
      omega
    · obtain ⟨h2, hhead⟩ := snprintf_append_deep (q := c) hp hdeep
      refine ⟨hhead, ?_⟩
      rw [addSlash_of_deep h2]
      have := hcut (p ++ c)
      simp only [pathMax] at this ⊢
      omega
  · rcases hp.deep with rfl | hdeep
    · exact absurd hroot (by decide)
    · obtain ⟨h2, hhead⟩ := snprintf_append_deep (q := slash :: c) hp hdeep
      refine ⟨hhead, ?_⟩
      rw [addSlash_of_deep h2]
      have := hcut (p ++ slash :: c)
      simp only [pathMax] at this ⊢
      omega

theorem mem_cwdJoin {p c : CStr} {b : Byte} (h : b ∈ cwdJoin p c) : b ∈ p ∨ b ∈ c ∨ b = slash := by
  unfold cwdJoin at h
  split_ifs at h
  · exact Or.inr (Or.inl h)
  · have hmem := List.mem_of_mem_take h
    rw [List.mem_append] at hmem
    tauto
  · have hmem := List.mem_of_mem_take h
    rw [List.mem_append, List.mem_cons] at hmem
    tauto

theorem curPathInv_cwdJoin {p c : CStr} (hp : CurPathInv p) (hc : c.length ≤ 511)
    (hclean : ∀ b ∈ c, b ∉ argStops) : CurPathInv (addSlash (cwdJoin p c)) := by
  obtain ⟨habs, hlen⟩ := cwdJoin_absolute hp hc
  refine ⟨hlen, addSlash_head habs, Or.inr (addSlash_deep habs), fun b hb => ?_⟩
  rcases mem_addSlash hb with hb | rfl
  · rcases mem_cwdJoin hb with hb | hb | rfl
    · exact hp.clean b hb
    · exact hclean b hb
    · decide
  · decide

def cwdTarget (env : Env) (curPath args : CStr) : Option CStr :=
  match scanSet argStops args with
  | none => none
  | some cmdPath =>
    if cmdPath = [slash] then some [slash]
    else if cmdPath = dotDot then some (parentPath curPath)
    else if env.sceIoDopen (getVitaPath (addSlash (cwdJoin curPath cmdPath))) < 0 then none
    else some (addSlash (cwdJoin curPath cmdPath))

theorem curPathInv_cwdTarget {env : Env} {p args q : CStr} (hp : CurPathInv p)
    (hargs : args.length ≤ 511) (h : cwdTarget env p args = some q) : CurPathInv q := by
  unfold cwdTarget at h
  cases hs : scanSet argStops args with
  | none => simp [hs] at h
  | some c =>
    have hc : c.length ≤ 511 := (scanSet_length_le hs).trans hargs
    simp only [hs] at h
    split_ifs at h with h1 h2 h3
    · obtain rfl := Option.some.inj h
      exact curPathInv_root
    · obtain rfl := Option.some.inj h
      exact curPathInv_parent hp
    · obtain rfl := Option.some.inj h
      exact curPathInv_cwdJoin hp hc fun b hb => scanSet_notMem hs hb

def cwdReply (env : Env) (curPath args : CStr) : CStr :=
  match scanSet argStops args, cwdTarget env curPath args with
  | none, _ => bytes "500 Syntax error, command unrecognized." ++ eol
  | some _, none => bytes "550 Invalid directory." ++ eol
  | some _, some _ => bytes "250 Requested file action okay, completed." ++ eol

theorem cwdEnter_apply (env : Env) {s : Session} {c : CStr} (hp : CurPathInv s.client.curPath)
    (hc : c.length ≤ 511) (hclean : ∀ b ∈ c, b ∉ argStops) :
    ∃ es, cwdEnter env c s = .ok ⟨⟩ { s with
        client := { s.client with
          curPath := if env.sceIoDopen (getVitaPath (addSlash (cwdJoin s.client.curPath c))) < 0
            then s.client.curPath else addSlash (cwdJoin s.client.curPath c) }
        trace := s.trace ++ es } ∧
      ctrlMsgs es = [
        if env.sceIoDopen (getVitaPath (addSlash (cwdJoin s.client.curPath c))) < 0
        then bytes "550 Invalid directory." ++ eol
        else bytes "250 Requested file action okay, completed." ++ eol] := by
  have hjoin := curPathInv_cwdJoin hp hc hclean
  set q := addSlash (cwdJoin s.client.curPath c) with hq
  have htmp : q.length < Buffer.tmpPath.size := hjoin.fits
  have hcur : q.length < Buffer.curPath.size := hjoin.fits
  have hne : q ≠ [slash] := by
    intro h
    have h2 := addSlash_deep (cwdJoin_absolute hp hc).1
    rw [← hq, h] at h2
    exact absurd h2 (by decide)
  by_cases hd : env.sceIoDopen (getVitaPath q) < 0
  · refine ⟨[.dopen (getVitaPath q) (env.sceIoDopen (getVitaPath q)),
      .ctrlSend (bytes "550 Invalid directory." ++ eol)], ?_, ?_⟩
    · simp [cwdEnter, bind_apply, ← hq, store_ok htmp, hne, hd]
    · simp [hd]
  · refine ⟨[.dopen (getVitaPath q) (env.sceIoDopen (getVitaPath q)),
      .dclose (env.sceIoDopen (getVitaPath q)),
      .ctrlSend (bytes "250 Requested file action okay, completed." ++ eol)], ?_, ?_⟩
    · simp [cwdEnter, bind_apply, ← hq, store_ok htmp, store_ok hcur, hne, hd]
    · simp [hd]

theorem cmdCwdFunc_apply (env : Env) {s : Session} (hp : CurPathInv s.client.curPath)
    (hargs : s.client.recvCmdArgs.length ≤ 511) :
    ∃ es, cmdCwdFunc env s = .ok ⟨⟩ { s with
        client := { s.client with
          curPath := (cwdTarget env s.client.curPath s.client.recvCmdArgs).getD s.client.curPath }
        trace := s.trace ++ es } ∧
      ctrlMsgs es = [cwdReply env s.client.curPath s.client.recvCmdArgs] := by
  unfold cmdCwdFunc cwdReply cwdTarget
  cases hs : scanSet argStops s.client.recvCmdArgs with
  | none =>
    refine ⟨[.ctrlSend (bytes "500 Syntax error, command unrecognized." ++ eol)], ?_, rfl⟩
    simp [bind_apply, hs]
  | some c =>
    have hc : c.length ≤ 511 := (scanSet_length_le hs).trans hargs
    have hcmd : c.length < Buffer.cmdPath.size := by
      simp only [Buffer.size, pathMax]
      omega
    have hcur : c.length < Buffer.curPath.size := hcmd
    by_cases hroot : c = [slash]
    · subst hroot
      refine ⟨[.ctrlSend (bytes "250 Requested file action okay, completed." ++ eol)], ?_, ?_⟩
      · simp [bind_apply, hs, store_ok hcmd, store_ok hcur]
      · simp
    · by_cases hdot : c = dotDot
      · subst hdot
        refine ⟨[.ctrlSend (bytes "250 Requested file action okay, completed." ++ eol)], ?_, ?_⟩
        · simp [bind_apply, hs, store_ok hcmd, hroot, dirUp_apply hp]
        · simp [hroot]
      · obtain ⟨es, hes, hmsgs⟩ := cwdEnter_apply env hp hc fun b hb => scanSet_notMem hs hb
        refine ⟨es, ?_, ?_⟩
        · simp only [bind_apply, getClient_apply, hs, store_ok hcmd, hroot, hdot, if_false, hes]
          split_ifs <;> simp
        · rw [hmsgs]
          simp only [hroot, hdot, if_false]
          split_ifs <;> rfl

theorem cmdCdupFunc_apply {s : Session} (hp : CurPathInv s.client.curPath) :
    cmdCdupFunc s = .ok ⟨⟩ { s with
      client := { s.client with curPath := parentPath s.client.curPath }
      trace := s.trace ++ [.ctrlSend (bytes "200 Command okay." ++ eol)] } := by
  simp [cmdCdupFunc, bind_apply, dirUp_apply hp]

/-! ## Sessions of CWD and CDUP -/

inductive NavCmd
  | cwd (args : CStr) (env : Env)
  | cdup

def runNav : NavCmd → FtpM PUnit
  | .cwd args env => do
    setClient fun c => { c with recvCmdArgs := args }
    cmdCwdFunc env
  | .cdup => cmdCdupFunc

/-- An argument that a receive buffer of 512 bytes can hold. -/
def NavCmd.Short : NavCmd → Prop
  | .cwd args _ => args.length ≤ 511
  | .cdup => True

theorem runNav_cwd (env : Env) {args : CStr} {s : Session} (hp : CurPathInv s.client.curPath)
    (hargs : args.length ≤ 511) :
    ∃ t es, runNav (.cwd args env) s = .ok ⟨⟩ t ∧ t.trace = s.trace ++ es ∧
      t.client.curPath = (cwdTarget env s.client.curPath args).getD s.client.curPath ∧
      ctrlMsgs es = [cwdReply env s.client.curPath args] := by
  obtain ⟨es, hes, hmsgs⟩ :=
    cmdCwdFunc_apply env (s := { s with client := { s.client with recvCmdArgs := args } }) hp hargs
  exact ⟨_, es, hes, rfl, rfl, hmsgs⟩

theorem runNav_step (c : NavCmd) (s : Session) (hc : c.Short) (hp : CurPathInv s.client.curPath) :
    ∃ t, runNav c s = .ok ⟨⟩ t ∧ CurPathInv t.client.curPath := by
  cases c with
  | cwd args env =>
    obtain ⟨t, es, ht, -, hcur, -⟩ := runNav_cwd env hp hc
    refine ⟨t, ht, ?_⟩
    rw [hcur]
    cases htarget : cwdTarget env s.client.curPath args with
    | none => exact hp
    | some q => exact curPathInv_cwdTarget hp hc htarget
  | cdup => exact ⟨_, cmdCdupFunc_apply hp, curPathInv_parent hp⟩

theorem cwdTarget_of_refused {env : Env} {p args : CStr}
    (h : bytes "500" <+: cwdReply env p args ∨ bytes "550" <+: cwdReply env p args) :
    cwdTarget env p args = none := by
  cases ht : cwdTarget env p args with
  | none => rfl
  | some q =>
    have hs : ∃ c, scanSet argStops args = some c := by
      cases hs : scanSet argStops args with
      | none => simp [cwdTarget, hs] at ht
      | some c => exact ⟨c, rfl⟩
    obtain ⟨c, hs⟩ := hs
    simp only [cwdReply, hs, ht] at h
    exact absurd h (by decide)

/-- **The current path over any session of CWD and CDUP.** The run returns, so every `strrchr` found
its slash and every `strcat` had room; the path has the shape of `CurPathInv`. -/
theorem nav_curPath (cmds : List NavCmd) (s : Session) (hcmds : ∀ c ∈ cmds, c.Short)
    (hs : s.client.curPath = [slash]) :
    ∃ t, runAll runNav cmds s = .ok ⟨⟩ t ∧
      t.client.curPath.length < pathMax ∧ t.client.curPath.head? = some slash ∧
      (t.client.curPath = [slash] ∨ 2 ≤ t.client.curPath.count slash) ∧
      (∃ i, strrchr t.client.curPath slash = some i) ∧
      (∃ p, dirUp t.client.curPath t = .ok p t ∧ p ≠ []) ∧
      ∀ args env, args.length ≤ 511 →
        ∃ u es, runNav (.cwd args env) t = .ok ⟨⟩ u ∧ u.trace = t.trace ++ es ∧
          ∀ m ∈ ctrlMsgs es, bytes "500" <+: m ∨ bytes "550" <+: m →
            u.client.curPath = t.client.curPath := by
  have hroot : CurPathInv s.client.curPath := hs ▸ curPathInv_root
  obtain ⟨t, ht, hp⟩ := runAll_ok (I := fun s : Session => CurPathInv s.client.curPath) runNav_step hcmds hroot
  refine ⟨t, ht, hp.fits, hp.absolute, hp.deep,
    strrchr_isSome (List.mem_of_mem_head? hp.absolute),
    ⟨parentPath t.client.curPath, dirUp_apply hp t, ?_⟩, ?_⟩
  · intro hnil
    have habs := (curPathInv_parent hp).absolute
    rw [hnil] at habs
    cases habs
  · intro args env hargs
    obtain ⟨u, es, hu, htrace, hcur, hmsgs⟩ := runNav_cwd env hp hargs
    refine ⟨u, es, hu, htrace, ?_⟩
    intro m hm hrefused
    rw [hmsgs, List.mem_singleton] at hm
    rw [hcur, cwdTarget_of_refused (hm ▸ hrefused), Option.getD_none]

theorem nav_curPath_device :
    (∀ c ∈ [NavCmd.cwd (bytes "/ux0:") calmEnv, .cdup], c.Short) ∧
      newSession.client.curPath = [slash] ∧
      ∃ t, runAll runNav [.cwd (bytes "/ux0:") calmEnv, .cdup] newSession = .ok ⟨⟩ t ∧
        t.client.curPath.length < pathMax := by
  have hshort : ∀ c ∈ [NavCmd.cwd (bytes "/ux0:") calmEnv, .cdup], c.Short := by
    intro c hc
    rcases List.mem_pair.mp hc with rfl | rfl
    · exact (by decide : (bytes "/ux0:").length ≤ 511)
    · trivial
  obtain ⟨t, ht, hlen, -⟩ := nav_curPath _ newSession hshort rfl
  exact ⟨hshort, rfl, t, ht, hlen⟩

end VitaConnect.Ftp
