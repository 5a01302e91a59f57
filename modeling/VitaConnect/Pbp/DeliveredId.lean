import VitaConnect.Pbp.Delivered

/-! # Reads that fail: the content id

Behind a type that is not known no structure is read. Behind a magic that is not complete the type is
that of NPUMDIMG, so that a header which happens to hold a content id is accepted; behind a failed read
the memory of the local variables decides.
-/
namespace VitaConnect.Pbp
open CString Program
set_option autoImplicit false

/-! ## Reading one header -/

/-- The last check of `get_pbp_content_id`. -/
def checkId (res : ℤ) : PbpM ℤ :=
  if res ≠ 0 then do
    let s ← get
    if ((s.contentId.take 0x30).takeWhile (· != 0)).length = 0x24 then pure res else pure 0
  else pure res

/-- A header is read, and the id that is found in it checked. -/
def idRun (x : Local) (off : ℕ) (mem : Stack) : PbpM ℤ := readContentId mem x off >>= checkId

/-- The state behind a header that counts as complete. -/
def Reading.withId (s : Reading) (x : Local) (off : ℕ) (struct : List Byte) : Reading :=
  { s.behindRead x.size with
    contentId := strncpyId ((struct.drop off).take 0x30) ++ s.contentId.drop 0x30 }

section Header
variable {s : Reading} {x : Local} {off : ℕ} {mem : Stack}

theorem idRun_short (h : u32 (s.ret x.size) < x.size) :
    idRun x off mem s = .ok 0 (s.behindRead x.size) := by
  rw [idRun, readContentId, bind_apply, bind_read]
  dsimp only
  rw [if_pos h]
  rfl

theorem idRun_long (hoff : off + 0x30 ≤ x.size) (h : ¬ u32 (s.ret x.size) < x.size)
    {struct : List Byte} (hstruct : overwrite (mem.array x) (s.delivered x.size) = struct) :
    idRun x off mem s
      = .ok (if (idOf (some struct) off).isSome then 1 else 0) (s.withId x off struct) := by
  have hlen : struct.length = x.size := by
    rw [← hstruct, overwrite_delivered_length (mem.array_length x)]
  have hfield : ((struct.drop off).take 0x30).length = 0x30 := by
    rw [List.length_take, List.length_drop, hlen]
    omega
  have hread : readContentId mem x off s
      = .ok (if (idOf (some struct) off).isSome then 1 else 0) (s.withId x off struct) := by
    rw [readContentId, bind_read]
    dsimp only
    rw [if_neg h, hstruct]
    have hstrlen := strlen_strncpyId hfield (s.contentId.drop 0x30)
    rw [idOf, Option.bind_some]
    simp only [← hstrlen]
    rfl
  rw [idRun, bind_apply, hread]
  dsimp only
  by_cases hid : (idOf (some struct) off).isSome
  · obtain ⟨id, hid'⟩ := Option.isSome_iff_exists.mp hid
    obtain ⟨hidlen, hnonzero⟩ := idOf_eq_some hid'
    have hcheck : (((s.withId x off struct).contentId.take 0x30).takeWhile (· != 0)).length = 0x24 :=
      strnlen_contentId hidlen hnonzero (take_strncpyId hid')
    rw [if_pos hid, checkId, if_pos one_ne_zero, bind_apply, get_apply]
    dsimp only
    rw [if_pos hcheck]
    rfl
  · rw [if_neg hid, checkId, if_neg (not_not.mpr rfl)]
    rfl

theorem withId_calls (s : Reading) (x : Local) (off : ℕ) (struct : List Byte) :
    (s.withId x off struct).calls = s.calls ++ [.read x.size (s.delivered x.size) (s.ret x.size)] := rfl

/-- A read that does not fail leaves nothing to the memory of the header. -/
theorem idRun_delivers (hoff : off + 0x30 ≤ x.size) (h : ¬ s.Fails 0) :
    ∃ value t, (∀ mem, idRun x off mem s = .ok value t) ∧
      t.calls = s.calls ++ [.read x.size (s.delivered x.size) (s.ret x.size)] ∧
      (value ≠ 0 ↔ (s.delivered x.size).length = x.size ∧ (idOf (some (s.delivered x.size)) off).isSome) := by
  have hsize : x.size < 2147483648 := by cases x <;> decide
  have hle := delivered_length_le s x.size
  by_cases hlen : (s.delivered x.size).length = x.size
  · have hlong := not_short_of_complete hsize hlen
    have harray : ∀ mem : Stack, overwrite (mem.array x) (s.delivered x.size) = s.delivered x.size :=
      fun mem => overwrite_of_complete (by rw [mem.array_length, hlen])
    refine ⟨_, _, fun mem => idRun_long hoff hlong (harray mem), withId_calls _ _ _ _, ?_⟩
    simp [hlen, Option.isSome_iff_ne_none]
  · have hshort := (short_iff hsize).mpr ⟨h, lt_of_le_of_ne hle hlen⟩
    exact ⟨0, _, fun mem => idRun_short hshort, behindRead_calls s x.size, by simp [hlen]⟩

/-- A header with a content id in its field at `off`. -/
def structWithId (size off : ℕ) : List Byte :=
  List.replicate off 0 ++ List.replicate 36 65 ++ List.replicate (size - off - 36) 0

theorem structWithId_length {size : ℕ} (hoff : off + 0x30 ≤ size) :
    (structWithId size off).length = size := by
  simp only [structWithId, List.length_append, List.length_replicate]
  omega

theorem idOf_structWithId {size : ℕ} (hoff : off + 0x30 ≤ size) :
    (idOf (some (structWithId size off)) off).isSome := by
  have hfield : ((structWithId size off).drop off).take 0x30
      = List.replicate 36 65 ++ List.replicate 12 0 := by
    rw [structWithId, List.append_assoc, List.drop_left' (List.length_replicate ..), List.take_append,
      List.take_of_length_le (by simp), List.length_replicate, List.take_replicate]
    congr 2
    omega
  rw [idOf, Option.bind_some, hfield]
  decide

/-- Behind a failed read the memory of the header may hold a content id. -/
theorem idRun_fails (hoff : off + 0x30 ≤ x.size) (h : s.Fails 0) :
    ∃ t, idRun x off (.holding x (structWithId x.size off)) s = .ok 1 t ∧
      t.calls = s.calls ++ [.read x.size (s.delivered x.size) (s.ret x.size)] := by
  have hlong : ¬ u32 (s.ret x.size) < x.size := long_of_fails (by cases x <;> decide) h
  refine ⟨_, ?_, withId_calls s x off (structWithId x.size off)⟩
  have harray : overwrite ((Stack.holding x (structWithId x.size off)).array x) (s.delivered x.size)
      = structWithId x.size off := by
    rw [delivered_of_fails h, overwrite_nil, array_holding (structWithId_length hoff)]
  rw [idRun_long hoff hlong harray, if_pos (idOf_structWithId hoff)]

end Header

/-! ## The whole run -/

/-- The run of `get_pbp_content_id` behind `sceIoOpen`. -/
def contentIdRun (mem : Stack) : PbpM ℤ := readDataPsarHeader mem >>= checkId

section Run
variable {mem : Stack} {s t : Reading} {header : List Byte}

theorem contentIdRun_zero (h : determinePbpType mem s = .ok (0, header) t) :
    contentIdRun mem s = idRun .npumdimgHeader 0x10 mem (t.behindSeek (dataPsarPtr header)) := by
  rw [contentIdRun, readDataPsarHeader, bind_apply, bind_apply, h]
  rfl

theorem contentIdRun_psx {pbpType : PbpType} (hkind : pbpType ∈ [PbpType.psisoimg, .pstitleimg])
    (h : determinePbpType mem s = .ok (pbpType.code, header) t) :
    contentIdRun mem s = idRun .dataPspHeader 0x560 mem (t.behindSeek (dataPspPtr header)) := by
  rw [contentIdRun, readDataPsarHeader, bind_apply, bind_apply, h]
  simp only [List.mem_cons, List.not_mem_nil, or_false] at hkind
  rcases hkind with rfl | rfl <;> rfl

theorem contentIdRun_unknown (h : determinePbpType mem s = .ok (PbpType.unknown.code, header) t) :
    contentIdRun mem s = .ok 0 t := by
  rw [contentIdRun, readDataPsarHeader, bind_apply, bind_apply, h]
  rfl

end Run

/-- Where the header of an NPUMDIMG is read. -/
def Reading.atImage (s : Reading) : Reading := s.pastMagic.behindSeek (dataPsarPtr (s.delivered 40))

/-- Where the header of the DATA.PSP of a signed image is read. -/
def Reading.atDataPsp (s : Reading) (pbpType : PbpType) : Reading :=
  ((s.atSignature pbpType).behindRead 4).behindSeek (dataPspPtr (s.delivered 40))

structure IdDelivered (s : Reading) : Prop where
  header : (s.delivered 40).length = 40
  magic : ¬ s.Fails 1
  short : (s.atPsar.delivered 8).length < 8 → ¬ s.Fails 2 ∧
    ¬ ((s.atImage.delivered 256).length = 256 ∧ (idOf (some (s.atImage.delivered 256)) 0x10).isSome)
  npumdimg : s.atPsar.delivered 8 = bytes "NPUMDIMG" → ¬ s.Fails 2
  psx : ∀ pbpType ∈ [PbpType.psisoimg, .pstitleimg], s.atPsar.delivered 8 = psxMagic pbpType →
    ¬ s.Fails 2 ∧ ((s.atSignature pbpType).delivered 4 = pgd → ¬ s.Fails 3)

theorem atImage_fails (s : Reading) (i : ℕ) : s.atImage.Fails i ↔ s.Fails (i + 2) := by
  rw [Reading.atImage, behindSeek_fails, pastMagic_fails]

theorem atDataPsp_fails (s : Reading) (pbpType : PbpType) (i : ℕ) :
    (s.atDataPsp pbpType).Fails i ↔ s.Fails (i + 3) := by
  rw [Reading.atDataPsp, behindSeek_fails, behindRead_fails, atSignature_fails]

theorem atPsar_fails (s : Reading) (i : ℕ) : s.atPsar.Fails i ↔ s.Fails (i + 1) := by
  rw [Reading.atPsar, behindSeek_fails, behindRead_fails]

theorem atImage_calls (s : Reading) :
    s.atImage.calls = s.pastMagic.calls ++ [.lseek (dataPsarPtr (s.delivered 40))] := rfl

theorem atDataPsp_calls (s : Reading) (pbpType : PbpType) :
    (s.atDataPsp pbpType).calls = ((s.atSignature pbpType).behindRead 4).calls ++
      [.lseek (dataPspPtr (s.delivered 40))] := by
  rw [Reading.atDataPsp, behindSeek_calls]

section Delivered
variable {s : Reading}

/-- A last read that delivers is short of the header only where nothing is answered. -/
theorem zero_of_short {x : Local} {off : ℕ} {value : ℤ} (hdelivers : ¬ s.Fails 0)
    (hvalue : value ≠ 0 ↔ (s.delivered x.size).length = x.size ∧ (idOf (some (s.delivered x.size)) off).isSome)
    (hlt : s.ret x.size < x.size) : value = 0 := by
  by_contra hne
  rw [ret_of_not_fails hdelivers, (hvalue.mp hne).1] at hlt
  exact absurd hlt (lt_irrefl _)

/-- The file counts as an NPUMDIMG. -/
theorem uniform_of_image (h : IdDelivered s)
    (hzero : (s.atPsar.delivered 8).length < 8 ∨ s.atPsar.delivered 8 = bytes "NPUMDIMG") :
    Uniform (RefusesShort 0) contentIdRun s := by
  have hheader := ret_of_complete (by norm_num) h.header
  have hmagic : ¬ s.atPsar.Fails 0 := by
    rw [atPsar_fails]
    exact h.magic
  have hmagicRet : s.atPsar.ret 8 = (s.atPsar.delivered 8).length := ret_of_not_fails hmagic
  have hdetermine : ∀ mem, determinePbpType mem s = .ok (0, s.delivered 40) s.pastMagic := by
    intro mem
    refine determinePbpType_zero h.header ?_
    rcases hzero with hshort | hnpumdimg
    · exact Or.inl ((short_iff (by decide)).mpr ⟨hmagic, hshort⟩)
    · exact Or.inr (magic_complete hnpumdimg (by decide) mem).2
  have himage : ¬ s.atImage.Fails 0 := by
    rw [atImage_fails]
    exact hzero.elim (fun hshort => (h.short hshort).1) h.npumdimg
  obtain ⟨value, t, hrun, hcalls, hvalue⟩ :=
    idRun_delivers (show 0x10 + 0x30 ≤ Local.npumdimgHeader.size by decide) himage
  refine ⟨value, t, _, fun mem => (contentIdRun_zero (hdetermine mem)).trans (hrun mem),
    by rw [hcalls, atImage_calls, pastMagic_calls, List.append_assoc, List.append_assoc], ?_⟩
  simp only [hheader, List.cons_append, List.nil_append, refusesShort_read, refusesShort_lseek,
    refusesShort_nil]
  refine ⟨by simp, fun hlt => ?_, zero_of_short himage hvalue, trivial⟩
  by_contra hne
  exact (h.short (by omega)).2 (hvalue.mp hne)

/-- The file has the magic of a PS1 image, with its signature or without. -/
theorem uniform_of_psx (h : IdDelivered s) (hcomplete : (s.atPsar.delivered 8).length = 8)
    {pbpType : PbpType} (hkind : pbpType ∈ [PbpType.psisoimg, .pstitleimg])
    (heq : s.atPsar.delivered 8 = psxMagic pbpType) : Uniform (RefusesShort 0) contentIdRun s := by
  have hheader := ret_of_complete (by norm_num) h.header
  have hmagicRet : s.atPsar.ret 8 = (s.atPsar.delivered 8).length := by
    refine ret_of_not_fails ?_
    rw [atPsar_fails]
    exact h.magic
  have hsignature : ¬ (s.atSignature pbpType).Fails 0 := by
    rw [atSignature_fails]
    exact (h.psx pbpType hkind heq).1
  have hdetermine : ∀ mem, determinePbpType mem s = .ok (if (s.atSignature pbpType).delivered 4 = pgd
      then pbpType.code else PbpType.unknown.code, s.delivered 40)
        ((s.atSignature pbpType).behindRead 4) := by
    intro mem
    rw [determinePbpType_psx h.header mem hkind heq, signedAnswer_delivers hsignature]
  by_cases hpgd : (s.atSignature pbpType).delivered 4 = pgd
  · simp only [if_pos hpgd] at hdetermine
    have hdata : ¬ (s.atDataPsp pbpType).Fails 0 := by
      rw [atDataPsp_fails]
      exact (h.psx pbpType hkind heq).2 hpgd
    obtain ⟨value, t, hrun, hcalls, hvalue⟩ :=
      idRun_delivers (show 0x560 + 0x30 ≤ Local.dataPspHeader.size by decide) hdata
    refine ⟨value, t, _, fun mem => (contentIdRun_psx hkind (hdetermine mem)).trans (hrun mem),
      by rw [hcalls, atDataPsp_calls, behindSignature_calls, pastMagic_calls, List.append_assoc,
        List.append_assoc, List.append_assoc], ?_⟩
    simp only [hheader, hmagicRet, hcomplete, List.cons_append, List.nil_append, refusesShort_read,
      refusesShort_lseek, refusesShort_nil]
    exact ⟨by simp, by simp, fun hlt => absurd hlt (pgd_complete hsignature hpgd),
      zero_of_short hdata hvalue, trivial⟩
  · simp only [if_neg hpgd] at hdetermine
    refine ⟨0, _, _, fun mem => contentIdRun_unknown (hdetermine mem),
      by rw [behindSignature_calls, pastMagic_calls, List.append_assoc], ?_⟩
    simp

theorem uniform_contentIdRun_of_delivered (h : IdDelivered s) : Uniform (RefusesShort 0) contentIdRun s := by
  by_cases hzero : (s.atPsar.delivered 8).length < 8 ∨ s.atPsar.delivered 8 = bytes "NPUMDIMG"
  · exact uniform_of_image h hzero
  rw [not_or] at hzero
  have hcomplete : (s.atPsar.delivered 8).length = 8 :=
    le_antisymm (delivered_length_le _ _) (not_lt.mp hzero.1)
  by_cases hpsx : ∃ pbpType ∈ [PbpType.psisoimg, .pstitleimg], s.atPsar.delivered 8 = psxMagic pbpType
  · obtain ⟨pbpType, hkind, heq⟩ := hpsx
    exact uniform_of_psx h hcomplete hkind heq
  · refine ⟨0, _, _, fun mem => ?_, pastMagic_calls s, by simp⟩
    obtain ⟨hlong, harray⟩ := magic_complete rfl hcomplete mem
    exact contentIdRun_unknown
      (determinePbpType_other h.header mem hlong harray (not_mem_magics hzero.2 hpsx))

end Delivered

/-! ## Every condition is needed -/

theorem grows_checkId (res : ℤ) : Respects CallsGrow (checkId res) := by
  refine respects_ite (respects_bind respects_get fun _ => ?_) (respects_pure _)
  exact respects_ite (respects_pure _) (respects_pure _)

theorem grows_idRun (x : Local) (off : ℕ) (mem : Stack) : Respects CallsGrow (idRun x off mem) :=
  respects_bind (grows_readContentId mem x off) grows_checkId

theorem contentIdRun_grows {mem : Stack} {s u t : Reading} {res : ℤ × List Byte} {value : ℤ}
    (hu : determinePbpType mem s = .ok res u) (hrun : contentIdRun mem s = .ok value t) :
    u.calls <+: t.calls := by
  rw [contentIdRun, readDataPsarHeader, bind_apply, bind_apply, hu] at hrun
  refine Respects.ok (R := CallsGrow) (respects_bind (respects_ite ?_ (respects_ite ?_ ?_))
    grows_checkId) hrun
  · exact respects_bind (grows_sceIoLseek _) fun _ => grows_readContentId _ _ _
  · exact respects_bind (grows_sceIoLseek _) fun _ => grows_readContentId _ _ _
  · exact respects_pure _

theorem idDelivered_header {s : Reading} (h : Uniform (RefusesShort 0) contentIdRun s) :
    (s.delivered 40).length = 40 := by
  by_contra hne
  have hshort := lt_of_le_of_ne (delivered_length_le s 40) hne
  refine not_uniform_of_seek (.read 40 (s.delivered 40) (s.ret 40)) hshort
    (fun mem value t hrun => ?_) h
  by_cases hfails : s.Fails 0
  · cases hu : determinePbpType mem s with
    | ok res u => exact (determinePbpType_seeks hfails hu).trans (contentIdRun_grows hu hrun)
    | error fault u =>
      rw [contentIdRun, readDataPsarHeader, bind_apply, bind_apply, hu] at hrun
      cases hrun
  · rw [contentIdRun_zero (determinePbpType_short hfails hshort mem)] at hrun
    refine List.IsPrefix.trans ?_ (Respects.ok (grows_idRun _ _ _) hrun)
    rw [behindSeek_calls, behindRead_calls, List.append_assoc]
    exact List.prefix_refl _

theorem idDelivered_magic {s : Reading} (hheader : (s.delivered 40).length = 40)
    (h : Uniform (RefusesShort 0) contentIdRun s) : ¬ s.Fails 1 := by
  intro hfails
  rw [← atPsar_fails s 0] at hfails
  have hlong : ¬ u32 (s.atPsar.ret 8) < Local.dataPsarMagic.size := long_of_fails (by decide) hfails
  have harray : ∀ magic : List Byte, magic.length = 8 →
      overwrite ((Stack.holding .dataPsarMagic magic).array .dataPsarMagic) (s.atPsar.delivered 8)
        = magic := by
    intro magic hlen
    rw [delivered_of_fails hfails, overwrite_nil, array_holding hlen]
  refine h.not_longer (contentIdRun_unknown
    (determinePbpType_other hheader _ hlong (harray (List.replicate 8 0) rfl) (by decide)))
    (.holding .dataPsarMagic (bytes "NPUMDIMG")) (.lseek (dataPsarPtr (s.delivered 40)))
    fun value t hrun => ?_
  rw [contentIdRun_zero
    (determinePbpType_zero hheader (Or.inr (harray (bytes "NPUMDIMG") (by decide))))] at hrun
  exact Respects.ok (grows_idRun _ _ _) hrun

/-- The refusal of the last read, and of the reads before it. -/
theorem idDelivered_image {s : Reading} (h : Uniform (RefusesShort 0) contentIdRun s)
    (hzero : ∀ mem, determinePbpType mem s = .ok (0, s.delivered 40) s.pastMagic) {mem : Stack}
    {value : ℤ} {t : Reading} (hrun : idRun .npumdimgHeader 0x10 mem s.atImage = .ok value t)
    (hcalls : t.calls = s.atImage.calls ++ [.read 256 (s.atImage.delivered 256) (s.atImage.ret 256)]) :
    (s.atPsar.ret 8 < 8 → value = 0) ∧ (s.atImage.ret 256 < 256 → value = 0) := by
  have hrefused := h.answer ((contentIdRun_zero (hzero mem)).trans hrun)
    (by rw [hcalls, atImage_calls, pastMagic_calls, List.append_assoc, List.append_assoc])
  simp only [List.cons_append, List.nil_append, refusesShort_read, refusesShort_lseek] at hrefused
  exact ⟨hrefused.2.1, hrefused.2.2.1⟩

theorem idDelivered_of_uniform {s : Reading} (h : Uniform (RefusesShort 0) contentIdRun s) :
    IdDelivered s := by
  have hheader := idDelivered_header h
  have hmagic := idDelivered_magic hheader h
  have hdelivers : ¬ s.atPsar.Fails 0 := by rwa [atPsar_fails]
  -- an image that fails to be read may hold a content id
  have himage : (∀ mem, determinePbpType mem s = .ok (0, s.delivered 40) s.pastMagic) → ¬ s.Fails 2 := by
    intro hzero hfails
    rw [← atImage_fails s 0] at hfails
    obtain ⟨t, hrun, hcalls⟩ :=
      idRun_fails (show 0x10 + 0x30 ≤ Local.npumdimgHeader.size by decide) hfails
    have hneg := (ret_of_fails 256 hfails).2
    exact one_ne_zero ((idDelivered_image h hzero hrun hcalls).2 (by omega))
  refine ⟨hheader, hmagic, fun hshort => ?_, fun heq => ?_, fun pbpType hkind heq => ?_⟩
  · have hzero : ∀ mem, determinePbpType mem s = .ok (0, s.delivered 40) s.pastMagic := fun mem =>
      determinePbpType_zero hheader (Or.inl ((short_iff (by decide)).mpr ⟨hdelivers, hshort⟩))
    refine ⟨himage hzero, fun hid => ?_⟩
    have hfails : ¬ s.atImage.Fails 0 := not_fails_of_complete (by norm_num) hid.1
    obtain ⟨value, t, hrun, hcalls, hvalue⟩ :=
      idRun_delivers (show 0x10 + 0x30 ≤ Local.npumdimgHeader.size by decide) hfails
    exact hvalue.mpr hid
      ((idDelivered_image h hzero (hrun (.holding .npumdimgHeader [])) hcalls).1 (ret_lt_of_short hshort))
  · exact himage fun mem =>
      determinePbpType_zero hheader (Or.inr (magic_complete heq (by decide) mem).2)
  · have hdetermine := fun mem => determinePbpType_psx hheader mem hkind heq
    have hsignature : ¬ s.Fails 2 := by
      intro hfails
      rw [← atSignature_fails s pbpType 0] at hfails
      have hsigned := signedAnswer_fails hfails (.holding .pgdMagic pgd)
      have hunsigned := signedAnswer_fails hfails (.holding .pgdMagic (List.replicate 4 0))
      rw [array_holding (by decide), if_pos rfl] at hsigned
      rw [array_holding (by decide), if_neg (by decide)] at hunsigned
      have hstops := hdetermine (.holding .pgdMagic (List.replicate 4 0))
      have hgoes := hdetermine (.holding .pgdMagic pgd)
      rw [hunsigned] at hstops
      rw [hsigned] at hgoes
      refine h.not_longer (contentIdRun_unknown hstops) (.holding .pgdMagic pgd)
        (.lseek (dataPspPtr (s.delivered 40))) fun value t hrun => ?_
      rw [contentIdRun_psx hkind hgoes] at hrun
      exact Respects.ok (grows_idRun _ _ _) hrun
    refine ⟨hsignature, fun hpgd hfails => ?_⟩
    have hdelivers : ¬ (s.atSignature pbpType).Fails 0 := by rwa [atSignature_fails]
    rw [← atDataPsp_fails s pbpType 0] at hfails
    obtain ⟨t, hrun, hcalls⟩ :=
      idRun_fails (show 0x560 + 0x30 ≤ Local.dataPspHeader.size by decide) hfails
    have hgoes := hdetermine (.holding .dataPspHeader (structWithId 0x590 0x560))
    rw [signedAnswer_delivers hdelivers, if_pos hpgd] at hgoes
    have hrefused := h.answer ((contentIdRun_psx hkind hgoes).trans hrun)
      (by rw [hcalls, atDataPsp_calls, behindSignature_calls, pastMagic_calls, List.append_assoc,
        List.append_assoc, List.append_assoc])
    simp only [List.cons_append, List.nil_append, refusesShort_read, refusesShort_lseek] at hrefused
    have hneg := (ret_of_fails 0x590 hfails).2
    exact one_ne_zero (hrefused.2.2.2.1 (hneg.trans (by decide)))

end VitaConnect.Pbp
