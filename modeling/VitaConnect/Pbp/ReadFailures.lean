import VitaConnect.Pbp.HashLoop

/-! # Reads that fail: the functions of `pbp.h`

`get_pbp_sfo` depends on its local variables only when the read of the header fails. `honours_iff` puts
the four functions together.
-/
namespace VitaConnect.Pbp
open CString Program
set_option autoImplicit false

/-! ## The param.sfo -/

/-- The run of `get_pbp_sfo` behind `sceIoOpen`. -/
def sfoRun (mem : Stack) : PbpM ℤ := do
  let (res, _) ← readSfo mem
  pure res

theorem sfoRun_of_readSfo {mem : Stack} {s t : Reading} {size : ℤ} {buffer : Option (List Byte)}
    (h : readSfo mem s = .ok (size, buffer) t) : sfoRun mem s = .ok size t :=
  bind_of_ok h

theorem readSfo_short {mem : Stack} {s : Reading} (h : ¬ s.Fails 0)
    (hshort : (s.delivered 40).length < 40) : readSfo mem s = .ok (0, none) (s.behindRead 40) := by
  have hlt : u32 (s.ret Local.pbpHeader.size) < Local.pbpHeader.size :=
    (short_iff (by decide)).mpr ⟨h, hshort⟩
  rw [readSfo, bind_read]
  dsimp only
  rw [if_pos hlt]
  rfl

/-- The size of the param.sfo according to a header. -/
def sfoSize (header : List Byte) : ℤ := i32 (icon0PngPtr header - paramSfoPtr header)

/-- What `read_sfo` does behind the header; nothing of it depends on the local variables. -/
def sfoBody (header : List Byte) : PbpM (ℤ × Option (List Byte)) :=
  if sfoSize header ≤ 0 then pure (0, none)
  else do
    let buffer ← malloc (sfoSize header).toNat
    match buffer with
    | none => pure (0, none)
    | some buffer => do
      sceIoLseek (paramSfoPtr header)
      let (readSz, buffer) ← readInto buffer
      if readSz < sfoSize header then pure (0, none) else pure (sfoSize header, some buffer)

theorem readSfo_header {mem : Stack} {s : Reading} {header : List Byte}
    (hlong : ¬ u32 (s.ret 40) < Local.pbpHeader.size)
    (hheader : overwrite (mem.array .pbpHeader) (s.delivered 40) = header) :
    readSfo mem s = sfoBody header (s.behindRead 40) := by
  subst hheader
  rw [readSfo, bind_read]
  exact congrFun (if_neg hlong) _

def Reading.behindMalloc (s : Reading) (size : ℕ) : Reading :=
  { s with calls := s.calls ++ [.malloc size] }

theorem malloc_bind {α : Type} (size : ℕ) (f : Option (List Byte) → PbpM α) (s : Reading) :
    (malloc size >>= f) s
      = f (s.malloc.map fun mem => (List.range size).map mem) (s.behindMalloc size) := rfl

theorem sfoBody_refuses (header : List Byte) (s : Reading) :
    ∃ res t calls, sfoBody header s = .ok res t ∧ t.calls = s.calls ++ calls ∧
      RefusesShort 0 res.1 calls := by
  by_cases hsize : sfoSize header ≤ 0
  · exact ⟨(0, none), s, [], by rw [sfoBody, if_pos hsize]; rfl, (List.append_nil _).symm,
      refusesShort_nil⟩
  set u := s.behindMalloc (sfoSize header).toNat with hu
  have hbody : sfoBody header s = match s.malloc.map fun mem =>
        (List.range (sfoSize header).toNat).map mem with
      | none => (pure (0, none) : PbpM (ℤ × Option (List Byte))) u
      | some buffer => (do
          sceIoLseek (paramSfoPtr header)
          let (readSz, buffer) ← readInto buffer
          if readSz < sfoSize header then pure (0, none) else pure (sfoSize header, some buffer)) u := by
    rw [sfoBody, if_neg hsize, malloc_bind]
    cases s.malloc <;> rfl
  rw [hbody]
  cases s.malloc with
  | none => exact ⟨(0, none), u, [.malloc (sfoSize header).toNat], rfl, rfl, by simp⟩
  | some heap =>
    set buffer := (List.range (sfoSize header).toNat).map heap with hbuffer
    have hlen : buffer.length = (sfoSize header).toNat := by simp [hbuffer]
    set v := u.behindSeek (paramSfoPtr header)
    refine ⟨if v.ret buffer.length < sfoSize header then (0, none)
        else (sfoSize header, some (overwrite buffer (v.delivered buffer.length))),
      v.behindRead buffer.length, [.malloc (sfoSize header).toNat, .lseek (paramSfoPtr header),
        .read buffer.length (v.delivered buffer.length) (v.ret buffer.length)], ?_, ?_, ?_⟩
    · show (sceIoLseek (paramSfoPtr header) >>= _) u = _
      rw [sceIoLseek_bind, bind_apply, readInto_apply]
      dsimp only
      rw [ite_run]
      split <;> rfl
    · rw [behindRead_calls, behindSeek_calls, hu, Reading.behindMalloc, List.append_assoc,
        List.append_assoc]
      rfl
    · simp only [refusesShort_malloc, refusesShort_lseek, refusesShort_read, refusesShort_nil, and_true]
      intro hshort
      rw [if_pos (by omega)]

theorem sfoBody_mallocs {header : List Byte} {s t : Reading} {res : ℤ × Option (List Byte)}
    (hsize : ¬ sfoSize header ≤ 0) (hrun : sfoBody header s = .ok res t) :
    s.calls ++ [.malloc (sfoSize header).toNat] <+: t.calls := by
  rw [sfoBody, if_neg hsize, malloc_bind] at hrun
  refine Respects.ok (R := CallsGrow) ?_ hrun
  cases s.malloc with
  | none => exact respects_pure _
  | some heap =>
    refine respects_bind (grows_sceIoLseek _) fun _ => respects_bind (grows_readInto _) fun r => ?_
    exact respects_ite (respects_pure _) (respects_pure _)

/-- A header according to which the param.sfo has one byte. -/
def oneByteSfo : List Byte := List.replicate 12 0 ++ [1] ++ List.replicate 27 0

/-- A header that counts as complete although nothing of it is delivered may ask for any size. -/
theorem uniform_sfoRun_iff (s : Reading) : Uniform (RefusesShort 0) sfoRun s ↔ ¬ s.Fails 0 := by
  constructor
  · intro h hfails
    have hlong : ¬ u32 (s.ret 40) < Local.pbpHeader.size := long_of_fails (by decide) hfails
    have harray : ∀ header : List Byte, header.length = 40 →
        overwrite ((Stack.holding .pbpHeader header).array .pbpHeader) (s.delivered 40) = header := by
      intro header hlen
      rw [delivered_of_fails hfails, overwrite_nil, array_holding hlen]
    have hstops : readSfo (.holding .pbpHeader (List.replicate 40 0)) s
        = .ok (0, none) (s.behindRead 40) := by
      have hempty : sfoSize (List.replicate 40 0) ≤ 0 := by decide
      rw [readSfo_header hlong (harray (List.replicate 40 0) rfl), sfoBody, if_pos hempty]
      rfl
    refine h.not_longer (sfoRun_of_readSfo hstops) (.holding .pbpHeader oneByteSfo) (.malloc 1)
      fun value t hrun => ?_
    obtain ⟨res, u, hu, hpure⟩ := bind_ok hrun
    obtain ⟨-, rfl⟩ := EStateM.Result.ok.inj hpure
    rw [readSfo_header hlong (harray oneByteSfo rfl)] at hu
    exact sfoBody_mallocs (by decide) hu
  · intro hdelivers
    by_cases hcomplete : (s.delivered 40).length = 40
    · obtain ⟨res, t, calls, hbody, hcalls, hrefuses⟩ := sfoBody_refuses (s.delivered 40) (s.behindRead 40)
      have hlong : ¬ u32 (s.ret 40) < Local.pbpHeader.size := not_short_of_complete (by decide) hcomplete
      refine ⟨res.1, t, .read 40 (s.delivered 40) (s.ret 40) :: calls, fun mem => ?_, ?_, ?_⟩
      · exact sfoRun_of_readSfo ((readSfo_header hlong (header_complete hcomplete mem)).trans hbody)
      · rw [hcalls, behindRead_calls, List.append_assoc]
        rfl
      · rw [refusesShort_read, ret_of_complete (by norm_num) hcomplete]
        exact ⟨fun hlt => absurd hlt (lt_irrefl _), hrefuses⟩
    · have hshort := lt_of_le_of_ne (delivered_length_le s 40) hcomplete
      exact ⟨0, _, _, fun mem => sfoRun_of_readSfo (readSfo_short hdelivers hshort),
        behindRead_calls s 40, by simp⟩


/-! ## The four functions -/

/-- When the reads of a file leave nothing to the memory of the local variables. -/
def ReadsSound : Reader → Reading → Prop
  | .getPbpType, s => 0 ≤ s.sceIoOpen → TypeDelivered { s with pos := 0 }
  | .getPbpContentId, s => 0 ≤ s.sceIoOpen → IdDelivered { s with pos := 0 }
  | .getPbpSfo, s => 0 ≤ s.sceIoOpen → ¬ s.Fails 0
  | .hashPbp, s => HashDelivered (s.behindSeek 0)

theorem uniform_open_iff {Q : ℤ → List Call → Prop} {m m' : Stack → PbpM ℤ} {s : Reading} (hQ : Q 0 [])
    (hm : ∀ mem, m mem s = if s.sceIoOpen < 0 then .ok 0 { s with pos := 0 }
      else m' mem { s with pos := 0 }) :
    Uniform Q m s ↔ (0 ≤ s.sceIoOpen → Uniform Q m' { s with pos := 0 }) := by
  unfold Uniform
  by_cases hopen : s.sceIoOpen < 0
  · refine iff_of_true ⟨0, { s with pos := 0 }, [], fun mem => ?_, (List.append_nil _).symm, hQ⟩
      fun hle => absurd hopen (not_lt.mpr hle)
    rw [hm, if_pos hopen]
  · simp only [hm, if_neg hopen, not_lt.mp hopen, forall_const]

theorem getPbpType_apply (mem : Stack) (path : CStr) (s : Reading) :
    getPbpType mem (some path) s = if s.sceIoOpen < 0 then .ok 0 { s with pos := 0 }
      else typeOf mem { s with pos := 0 } := by
  rw [getPbpType, openPbp_bind, ite_run]
  rfl

theorem getPbpContentId_apply (mem : Stack) (path : CStr) (s : Reading) :
    getPbpContentId mem (some path) s = if s.sceIoOpen < 0 then .ok 0 { s with pos := 0 }
      else contentIdRun mem { s with pos := 0 } := by
  rw [getPbpContentId, openPbp_bind, ite_run]
  rfl

theorem getPbpSfo_apply (mem : Stack) (path : CStr) (s : Reading) :
    Reader.getPbpSfo.run mem path s = if s.sceIoOpen < 0 then .ok 0 { s with pos := 0 }
      else sfoRun mem { s with pos := 0 } := by
  rw [Reader.run, bind_apply, getPbpSfo, openPbp_bind, ite_run]
  by_cases hopen : s.sceIoOpen < 0
  · rw [if_pos hopen, if_pos hopen]
    rfl
  · rw [if_neg hopen, if_neg hopen]
    rfl

theorem uniform_hashPbp_iff (s : Reading) :
    Uniform Reader.hashPbp.Stops (fun mem => hashPbp mem) s ↔
      Uniform (fun _ => HashesDelivered Local.pbpHeader.size) hashRun (s.behindSeek 0) := by
  constructor
  · rintro ⟨value, t, calls, hrun, hcalls, rest, rfl, hhashes⟩
    refine ⟨value, t, rest, fun mem => (hashPbp_apply mem s).symm.trans (hrun mem), ?_, hhashes⟩
    rw [hcalls, behindSeek_calls, List.append_assoc]
    rfl
  · rintro ⟨value, t, rest, hrun, hcalls, hhashes⟩
    refine ⟨value, t, .lseek 0 :: rest, fun mem => (hashPbp_apply mem s).trans (hrun mem), ?_, rest, rfl,
      hhashes⟩
    rw [hcalls, behindSeek_calls, List.append_assoc]
    rfl

/-- **Reads that fail.** A function of `pbp.c` has one outcome for every memory of its local variables,
and refuses a file of which a read delivers too little, exactly when its reads are sound. -/
theorem honours_iff (reader : Reader) (path : CStr) (s : Reading) :
    Honours reader path s ↔ ReadsSound reader s := by
  cases reader with
  | getPbpType =>
    refine (uniform_open_iff refusesShort_nil fun mem => getPbpType_apply mem path s).trans ?_
    exact imp_congr_right fun _ => ⟨typeDelivered_of_uniform, uniform_typeOf_of_delivered⟩
  | getPbpContentId =>
    refine (uniform_open_iff refusesShort_nil fun mem => getPbpContentId_apply mem path s).trans ?_
    exact imp_congr_right fun _ => ⟨idDelivered_of_uniform, uniform_contentIdRun_of_delivered⟩
  | getPbpSfo =>
    refine (uniform_open_iff refusesShort_nil fun mem => getPbpSfo_apply mem path s).trans ?_
    exact imp_congr_right fun _ => uniform_sfoRun_iff { s with pos := 0 }
  | hashPbp =>
    refine (uniform_hashPbp_iff s).trans ?_
    exact ⟨hashDelivered_of_uniform, uniform_hashRun_of_delivered⟩

def failingFile : Reading where
  sceIoOpen := 3
  content := []
  pos := 0
  sceIoRead := fun _ => .error ⟨-1, by decide⟩
  malloc := none
  contentId := []
  calls := []

/-- Nothing of this file is delivered, and its type is what the memory of the magic says. -/
theorem getPbpType_failing : ¬ Honours .getPbpType [] failingFile := by
  intro h
  have hrun : ∃ t calls, getPbpType (.holding .dataPsarMagic (bytes "NPUMDIMG")) (some []) failingFile
      = .ok PbpType.npumdimg.code t ∧ t.calls = failingFile.calls ++ .read 40 [] (-1) :: calls :=
    ⟨_, _, rfl, rfl⟩
  obtain ⟨t, calls, hrun, hcalls⟩ := hrun
  have hrefused := h.answer hrun hcalls
  exact absurd (hrefused 40 [] (-1) List.mem_cons_self (by decide)) (by decide)

end VitaConnect.Pbp
