import VitaConnect.Pbp.Kind

/-! # The content id of an EBOOT.PBP

`acceptedId` is the content id that `get_pbp_content_id` finds in a file read whole, `contentIdOf` the
one that the file has. A file without a header or a magic is taken for NPUMDIMG, and is refused only
because the next header is not there either.
-/
namespace VitaConnect.Pbp
open CString Program
set_option autoImplicit false

/-! ## The buffer of the caller -/

/-- The id of a field when its first NUL is at 36. -/
def idOfField (field : List Byte) : Option (List Byte) :=
  if (field.takeWhile (· != 0)).length = 36 then some (field.takeWhile (· != 0)) else none

/-- The id of the structure, whose field lies at `off`. -/
def idOf (struct : Option (List Byte)) (off : ℕ) : Option (List Byte) :=
  struct.bind fun xs => idOfField ((xs.drop off).take 0x30)

theorem idOfField_eq_some {field xs : List Byte} (h : idOfField field = some xs) :
    field.takeWhile (· != 0) = xs ∧ xs.length = 36 := by
  unfold idOfField at h
  split at h
  · next hlen =>
    obtain rfl := Option.some.inj h
    exact ⟨rfl, hlen⟩
  · cases h

theorem idOf_eq_some {struct : Option (List Byte)} {off : ℕ} {xs : List Byte}
    (h : idOf struct off = some xs) : xs.length = 36 ∧ ∀ b ∈ xs, b != 0 := by
  obtain ⟨ys, -, hys⟩ := Option.bind_eq_some_iff.mp h
  obtain ⟨rfl, hlen⟩ := idOfField_eq_some hys
  exact ⟨hlen, fun b hb => List.mem_takeWhile_imp (p := (· != 0)) hb⟩

section Field
variable {field : List Byte} (h : field.length = 0x30)
include h

theorem takeWhile_field_length_le : (field.takeWhile (· != 0)).length ≤ 0x30 :=
  h ▸ (List.takeWhile_prefix _).length_le

/-- What `strlen` sees of the copied field: its bytes up to the first NUL, or more than there are. -/
theorem strlen_strncpyId (behind : List Byte) :
    ((strncpyId field ++ behind).takeWhile (· != 0)).length = 36 ↔ (idOfField field).isSome := by
  have hle := takeWhile_field_length_le h
  have hnonzero : ∀ b ∈ field.takeWhile (· != 0), b != 0 := fun b hb =>
    List.mem_takeWhile_imp (p := (· != 0)) hb
  have hseen : ((strncpyId field ++ behind).takeWhile (· != 0)).length = 36 ↔
      (field.takeWhile (· != 0)).length = 36 := by
    rw [strncpyId, List.append_assoc, List.takeWhile_append_of_pos hnonzero, List.length_append]
    cases hpad : 0x30 - (field.takeWhile (· != 0)).length with
    | zero => omega
    | succ k => simp [List.replicate_succ]
  rw [hseen, idOfField]
  split <;> simp [*]

end Field

theorem take_strncpyId {field behind xs : List Byte} (hxs : idOfField field = some xs) :
    (strncpyId field ++ behind).take 37 = xs ++ [0] := by
  obtain ⟨rfl, hlen⟩ := idOfField_eq_some hxs
  rw [strncpyId, hlen, List.append_assoc, List.take_append, hlen, List.take_of_length_le (by omega)]
  rfl

/-! ## The functions on a file read whole -/

/-- What `get_pbp_content_id` answers, and leaves in the buffer, for the id it has found. -/
def Answers (found : Option (List Byte)) (res : ℤ) (t : Reading) : Prop :=
  (res ≠ 0 ↔ found.isSome) ∧ ∀ xs ∈ found, t.contentId.take 37 = xs ++ [0]

theorem readContentId_whole (mem : Stack) {s : Reading} (h : s.Whole) (x : Local) (off : ℕ)
    (hoff : off + 0x30 ≤ x.size) :
    ∃ res t, readContentId mem x off s = .ok res t ∧
      Answers (idOf (slice? s.content s.pos x.size) off) res t := by
  unfold readContentId idOf
  cases hstruct : slice? s.content s.pos x.size with
  | none =>
    obtain ⟨len, ys, hlen, hread⟩ := bind_incomplete mem x h hstruct _
    rw [hread]
    dsimp only
    rw [if_pos hlen]
    exact ⟨0, _, rfl, by simp, by simp⟩
  | some xs =>
    have hfield : ((xs.drop off).take 0x30).length = 0x30 := by
      rw [List.length_take, List.length_drop, slice?_length hstruct]
      omega
    have hsize : ¬ u32 (x.size : ℤ) < x.size := by cases x <;> decide
    rw [bind_complete h hstruct]
    dsimp only
    rw [if_neg hsize]
    refine ⟨_, _, rfl, ?_, ?_⟩
    · have hstrlen := strlen_strncpyId hfield ((s.behindRead x.size).contentId.drop 0x30)
      rw [Option.bind_some, ← hstrlen]
      split <;> simp_all
    · intro id hid
      exact take_strncpyId hid

/-- The content id that the code finds. -/
def acceptedId (content : List Byte) : Option (List Byte) :=
  (slice? content 0 40).bind fun header =>
    if typeCode content = PbpType.npumdimg.code then idOf (slice? content (dataPsarPtr header) 256) 0x10
    else if typeCode content = PbpType.psisoimg.code ∨ typeCode content = PbpType.pstitleimg.code then
      idOf (slice? content (dataPspPtr header) 0x590) 0x560
    else none

theorem acceptedId_eq_some {content xs : List Byte} (h : acceptedId content = some xs) :
    xs.length = 36 ∧ ∀ b ∈ xs, b != 0 := by
  obtain ⟨header, -, hid⟩ := Option.bind_eq_some_iff.mp h
  split_ifs at hid
  · exact idOf_eq_some hid
  · exact idOf_eq_some hid

/-- The check that `get_pbp_content_id` adds finds the id as it is. -/
theorem strnlen_contentId {buf xs : List Byte} (hlen : xs.length = 36) (hnonzero : ∀ b ∈ xs, b != 0)
    (htake : buf.take 37 = xs ++ [0]) : ((buf.take 0x30).takeWhile (· != 0)).length = 0x24 := by
  have hbuf : buf.take 0x30 = xs ++ 0 :: (buf.drop 37).take 11 := by
    rw [show 0x30 = 37 + 11 from rfl, List.take_add, htake, List.append_assoc]
    rfl
  rw [hbuf, List.takeWhile_append_of_pos hnonzero]
  simpa using hlen

theorem readDataPsarHeader_whole (mem : Stack) {s : Reading} (h : s.Whole) (hpos : s.pos = 0) :
    ∃ res t, readDataPsarHeader mem s = .ok res t ∧ Answers (acceptedId s.content) res t := by
  obtain ⟨header, t, ht, hst, hheader⟩ := determinePbpType_whole mem h hpos
  have hread : ∀ (psar : ℕ) (x : Local) (off : ℕ), off + 0x30 ≤ x.size →
      ∃ res u, readContentId mem x off (t.behindSeek psar) = .ok res u ∧
        Answers (idOf (slice? s.content psar x.size) off) res u := by
    intro psar x off hoff
    have hsought := hst.behindSeek psar
    have hfound := readContentId_whole mem hsought.whole x off hoff
    rwa [hsought.content, behindSeek_pos] at hfound
  have haccepted : acceptedId s.content
      = if typeCode s.content = PbpType.npumdimg.code then
          idOf (slice? s.content (dataPsarPtr header) 256) 0x10
        else if typeCode s.content = PbpType.psisoimg.code ∨ typeCode s.content = PbpType.pstitleimg.code
        then idOf (slice? s.content (dataPspPtr header) 0x590) 0x560
        else none := by
    unfold acceptedId
    cases hslice : slice? s.content 0 40 with
    | some xs => rw [hheader xs hslice, Option.bind_some]
    | none =>
      -- a file without a header has no room for the header of an image
      have hcode : typeCode s.content = PbpType.npumdimg.code := by
        rw [typeCode, hslice]
        rfl
      have hshort := slice?_eq_none_iff.mp hslice
      have himage : slice? s.content (dataPsarPtr header) 256 = none :=
        slice?_eq_none_iff.mpr (by omega)
      rw [if_pos hcode, himage]
      rfl
  rw [haccepted]
  unfold readDataPsarHeader
  rw [bind_apply, ht]
  dsimp only
  split_ifs
  · exact hread _ .npumdimgHeader 0x10 (by decide)
  · exact hread _ .dataPspHeader 0x560 (by decide)
  · exact ⟨0, t, rfl, by simp, by simp⟩

theorem getPbpContentId_whole (mem : Stack) (path : CStr) {s : Reading} (h : s.Whole) :
    ∃ res t, getPbpContentId mem (some path) s = .ok res t ∧
      Answers (if s.sceIoOpen < 0 then none else acceptedId s.content) res t := by
  have hopened : (Reading.Whole { s with pos := 0 }) := h
  obtain ⟨res, t, ht, hres, hbuf⟩ := readDataPsarHeader_whole mem hopened rfl
  rw [getPbpContentId, openPbp_bind]
  by_cases hopen : s.sceIoOpen < 0
  · rw [if_pos hopen, if_pos hopen]
    exact ⟨0, { s with pos := 0 }, rfl, by simp, by simp⟩
  · rw [if_neg hopen, if_neg hopen, bind_apply, ht]
    refine ⟨res, t, ?_, hres, hbuf⟩
    dsimp only
    by_cases hzero : res = 0
    · rw [if_neg (not_not.mpr hzero)]
      rfl
    · obtain ⟨xs, hxs⟩ := Option.isSome_iff_exists.mp (hres.mp hzero)
      obtain ⟨hlen, hnonzero⟩ := acceptedId_eq_some hxs
      rw [if_pos hzero, bind_apply, get_apply]
      dsimp only
      rw [if_pos (strnlen_contentId hlen hnonzero (hbuf xs hxs))]
      rfl

/-! ## The content id that a file has -/

def contentIdOf (content : List Byte) : Option (List Byte) :=
  (slice? content 0 40).bind fun header =>
    match contentType content with
    | .npumdimg => idOf (slice? content (dataPsarPtr header) 256) 0x10
    | .psisoimg | .pstitleimg => idOf (slice? content (dataPspPtr header) 0x590) 0x560
    | .unknown => none

/-- The magics of the two kinds of PS1 images. -/
def psxMagic : PbpType → List Byte
  | .psisoimg => bytes "PSISOIMG"
  | _ => bytes "PSTITLEI"

/-- The offset of the signature leaves the range of an `int`, and the four bytes behind the magic, which
are read in its place, look like one. -/
def Forged (content : List Byte) : Prop :=
  ∃ header pbpType, slice? content 0 40 = some header ∧ pbpType ∈ [PbpType.psisoimg, .pstitleimg] ∧
    slice? content (dataPsarPtr header) 8 = some (psxMagic pbpType) ∧
    2147483648 ≤ dataPsarPtr header + signatureOffset pbpType ∧
    slice? content (dataPsarPtr header + 8) 4 = some pgd ∧
    (idOf (slice? content (dataPspPtr header) 0x590) 0x560).isSome

section Small
variable {content header : List Byte} {pbpType : PbpType}

theorem typeCode_psx (hheader : slice? content 0 40 = some header)
    (hkind : pbpType ∈ [PbpType.psisoimg, .pstitleimg])
    (hmagic : slice? content (dataPsarPtr header) 8 = some (psxMagic pbpType)) :
    typeCode content = signedCode content (dataPsarPtr header) pbpType ∧
      contentType content = signedType content (dataPsarPtr header) pbpType := by
  unfold typeCode contentType
  rw [hheader]
  dsimp only
  rw [hmagic]
  simp only [List.mem_cons, List.not_mem_nil, or_false] at hkind
  rcases hkind with rfl | rfl <;> exact ⟨rfl, rfl⟩

/-- In a file below 2 GiB no signature lies where the offset leaves the range of an `int`. -/
theorem signed_of_small (hsize : content.length < 2147483648)
    (hmagic : slice? content (dataPsarPtr header) 8 = some (psxMagic pbpType)) :
    (dataPsarPtr header + signatureOffset pbpType < 2147483648 ∧
        SignatureFound content (dataPsarPtr header) pbpType) ∨
      (2147483648 ≤ dataPsarPtr header + signatureOffset pbpType ∧
        signaturePos (dataPsarPtr header) pbpType = dataPsarPtr header + 8 ∧
        signedType content (dataPsarPtr header) pbpType = .unknown) := by
  have hoff : signatureOffset pbpType ≤ 0x400 := by cases pbpType <;> decide
  obtain ⟨-, hle⟩ := slice?_eq_some_iff.mp hmagic
  by_cases hlt : dataPsarPtr header + signatureOffset pbpType < 2147483648
  · exact Or.inl ⟨hlt, signatureFound_of_lt hlt⟩
  · refine Or.inr ⟨by omega, ?_, ?_⟩
    · rw [signaturePos, if_neg hlt, if_pos (by omega)]
    · have hnone : slice? content (dataPsarPtr header + signatureOffset pbpType) 4 = none :=
        slice?_eq_none_iff.mpr (by omega)
      rw [signedType, hnone, if_neg (by simp)]

end Small

theorem Forged.differs {content : List Byte} (hsize : content.length < 2147483648)
    (h : Forged content) : (acceptedId content).isSome ∧ contentIdOf content = none := by
  obtain ⟨header, pbpType, hheader, hkind, hmagic, hoff, hpgd, hid⟩ := h
  obtain ⟨hcode, htype⟩ := typeCode_psx hheader hkind hmagic
  rcases signed_of_small hsize hmagic with ⟨hlt, -⟩ | ⟨-, hpos, hunknown⟩
  · omega
  have hsigned : typeCode content = pbpType.code := by rw [hcode, signedCode, hpos, hpgd, if_pos rfl]
  unfold acceptedId contentIdOf
  rw [hheader, Option.bind_some, Option.bind_some, hsigned, htype, hunknown]
  simp only [List.mem_cons, List.not_mem_nil, or_false] at hkind
  refine ⟨?_, rfl⟩
  rcases hkind with rfl | rfl
  · exact hid
  · exact hid

theorem acceptedId_of_typeCode {content : List Byte}
    (h : typeCode content = (contentType content).code) : acceptedId content = contentIdOf content := by
  unfold acceptedId contentIdOf
  rw [h]
  cases contentType content <;> rfl

theorem acceptedId_eq {content : List Byte} (hsize : content.length < 2147483648)
    (h : ¬ Forged content) : acceptedId content = contentIdOf content := by
  cases hheader : slice? content 0 40 with
  | none => rw [acceptedId, contentIdOf, hheader, Option.bind_none, Option.bind_none]
  | some header =>
    cases hmagic : slice? content (dataPsarPtr header) 8 with
    | none =>
      -- the code goes on as for NPUMDIMG, whose header does not fit either
      have hshort := slice?_eq_none_iff.mp hmagic
      have himage : slice? content (dataPsarPtr header) 256 = none :=
        slice?_eq_none_iff.mpr (by omega)
      have hcode : typeCode content = PbpType.npumdimg.code := by
        rw [typeCode, hheader]
        dsimp only
        rw [hmagic]
        rfl
      have htype : contentType content = .unknown := by
        rw [contentType, hheader]
        dsimp only
        rw [hmagic]
      rw [acceptedId, contentIdOf, hheader, Option.bind_some, Option.bind_some, hcode, htype, himage]
      rfl
    | some magic =>
      have hfound : ∀ pbpType, pbpType ∈ [PbpType.psisoimg, .pstitleimg] →
          magic = psxMagic pbpType → acceptedId content = contentIdOf content := by
        intro pbpType hkind heq
        subst heq
        obtain ⟨hcode, htype⟩ := typeCode_psx hheader hkind hmagic
        have hne : pbpType.code ≠ PbpType.unknown.code := by
          cases pbpType <;> first | decide | simp at hkind
        rcases signed_of_small hsize hmagic with ⟨-, hfound⟩ | ⟨hoff, hpos, hunknown⟩
        · apply acceptedId_of_typeCode
          rw [hcode, htype]
          exact (signedCode_eq_iff hne).mpr hfound
        · by_cases hpgd : slice? content (dataPsarPtr header + 8) 4 = some pgd
          · have hid : idOf (slice? content (dataPspPtr header) 0x590) 0x560 = none := by
              rw [← Option.not_isSome_iff_eq_none]
              exact fun hid => h ⟨header, pbpType, hheader, hkind, hmagic, hoff, hpgd, hid⟩
            rw [acceptedId, contentIdOf, hheader, Option.bind_some, Option.bind_some, hcode, htype,
              hunknown, signedCode, hpos, if_pos hpgd, hid]
            simp only [List.mem_cons, List.not_mem_nil, or_false] at hkind
            rcases hkind with rfl | rfl <;> rfl
          · apply acceptedId_of_typeCode
            rw [hcode, htype, hunknown, signedCode, hpos, if_neg hpgd]
      by_cases hpsisoimg : magic = bytes "PSISOIMG"
      · exact hfound .psisoimg (by simp) hpsisoimg
      by_cases hpstitlei : magic = bytes "PSTITLEI"
      · exact hfound .pstitleimg (by simp) hpstitlei
      · exact acceptedId_of_typeCode ((typeCode_eq_iff content).mpr ⟨header, magic, hheader, hmagic,
          fun heq => absurd heq hpsisoimg, fun heq => absurd heq hpstitlei⟩)

/-- **`get_pbp_content_id` on a file read whole, below 2 GiB.** It answers, and copies, the content id
that the file has exactly when the signature is not forged. -/
theorem getPbpContentId_exact_iff (mem : Stack) (path : CStr) (s : Reading) (h : s.Whole)
    (hsize : s.content.length < 2147483648) :
    (∃ res t, getPbpContentId mem (some path) s = .ok res t ∧ Answers (s.file.bind contentIdOf) res t) ↔
      ¬ (0 ≤ s.sceIoOpen ∧ Forged s.content) := by
  obtain ⟨res, t, ht, hanswers⟩ := getPbpContentId_whole mem path h
  by_cases hopen : s.sceIoOpen < 0
  · have hfile : s.file.bind contentIdOf = none := by rw [Reading.file, if_pos hopen, Option.bind_none]
    rw [if_pos hopen] at hanswers
    rw [hfile]
    exact iff_of_true ⟨res, t, ht, hanswers⟩ fun hforged => absurd hforged.1 (not_le.mpr hopen)
  · have hfile : s.file.bind contentIdOf = contentIdOf s.content := by
      rw [Reading.file, if_neg hopen, Option.bind_some]
    rw [if_neg hopen] at hanswers
    rw [hfile]
    constructor
    · rintro ⟨res', t', ht', hanswers'⟩ ⟨-, hforged⟩
      obtain ⟨rfl, rfl⟩ := EStateM.Result.ok.inj (ht.symm.trans ht')
      obtain ⟨hsome, hnone⟩ := hforged.differs hsize
      have hzero := hanswers'.1.mp (hanswers.1.mpr hsome)
      rw [hnone] at hzero
      cases hzero
    · intro hforged
      rw [← acceptedId_eq hsize fun hf => hforged ⟨not_lt.mp hopen, hf⟩]
      exact ⟨res, t, ht, hanswers⟩

def npumdimgFile : List Byte :=
  pbpHeaderOf 0 40 ++ bytes "NPUMDIMG" ++ List.replicate 8 0 ++ List.replicate 36 65 ++
    List.replicate 204 0

theorem getPbpContentId_exact_iff_npumdimg :
    ∃ res t, getPbpContentId (fun _ _ => 0) (some []) (wholeFile npumdimgFile) = .ok res t ∧
      Answers (some (List.replicate 36 65)) res t := by
  have hfound : (wholeFile npumdimgFile).file.bind contentIdOf = some (List.replicate 36 65) := by
    decide +kernel
  rw [← hfound]
  refine (getPbpContentId_exact_iff _ _ (wholeFile npumdimgFile) (fun _ => rfl) (by decide +kernel)).mpr ?_
  rintro ⟨-, header, pbpType, hheader, hkind, hmagic, -⟩
  have hheader' : slice? npumdimgFile 0 40 = some (pbpHeaderOf 0 40) := by decide +kernel
  have hmagic' : slice? npumdimgFile 40 8 = some (bytes "NPUMDIMG") := by decide +kernel
  obtain rfl := Option.some.inj (hheader'.symm.trans hheader)
  have hnpumdimg := Option.some.inj (hmagic'.symm.trans hmagic)
  cases pbpType <;> exact absurd hnpumdimg (by decide)

/-- The header of a DATA.PSP with a content id of 36 bytes. -/
def dataPspHeaderOf : List Byte :=
  List.replicate 0x560 0 ++ List.replicate 36 65 ++ List.replicate 12 0

/-- A file with `pad` bytes between the header of its DATA.PSP and its magic. -/
def forgedContent (pad : ℕ) : List Byte :=
  pbpHeaderOf 40 (1464 + pad) ++ dataPspHeaderOf ++ List.replicate pad 0 ++ bytes "PSISOIMG" ++ pgd

theorem dataPspHeaderOf_length : dataPspHeaderOf.length = 0x590 := by
  rw [dataPspHeaderOf, List.length_append, List.length_append, List.length_replicate,
    List.length_replicate, List.length_replicate]

theorem beforeMagic_length (pad : ℕ) :
    (pbpHeaderOf 40 (1464 + pad) ++ dataPspHeaderOf ++ List.replicate pad 0).length = 1464 + pad := by
  rw [List.length_append, List.length_append, List.length_replicate, pbpHeaderOf_length,
    dataPspHeaderOf_length]

theorem forgedContent_length (pad : ℕ) : (forgedContent pad).length = 1476 + pad := by
  have hmagic : (bytes "PSISOIMG").length = 8 := by decide
  have hpgd : pgd.length = 4 := by decide
  rw [forgedContent, List.length_append, List.length_append, beforeMagic_length, hmagic, hpgd]
  omega

theorem forged_forgedContent {pad : ℕ} (hlow : 2147482624 ≤ 1464 + pad)
    (hhigh : 1464 + pad < 4294967296) : Forged (forgedContent pad) := by
  set header := pbpHeaderOf 40 (1464 + pad) with hheaderOf
  set magic := bytes "PSISOIMG"
  have hpsar : dataPsarPtr header = 1464 + pad := by
    have hfield : (header.drop 36).take 4 = leBytes 4 (1464 + pad) := rfl
    rw [dataPsarPtr, word32, hfield, leWord_leBytes (by omega)]
  have hheader : slice? (forgedContent pad) 0 40 = some header := by
    have hbuf : forgedContent pad
        = [] ++ header ++ (dataPspHeaderOf ++ List.replicate pad 0 ++ magic ++ pgd) := by
      simp only [forgedContent, List.append_assoc, List.nil_append, header, magic]
    exact slice?_append _ _ hbuf rfl (pbpHeaderOf_length _ _)
  have hdata : slice? (forgedContent pad) 40 0x590 = some dataPspHeaderOf := by
    have hbuf : forgedContent pad
        = header ++ dataPspHeaderOf ++ (List.replicate pad 0 ++ magic ++ pgd) := by
      simp only [forgedContent, List.append_assoc, header, magic]
    exact slice?_append _ _ hbuf (pbpHeaderOf_length _ _) dataPspHeaderOf_length
  have hmagic : slice? (forgedContent pad) (1464 + pad) 8 = some magic :=
    slice?_append _ _ rfl (beforeMagic_length pad) rfl
  have hpgd : slice? (forgedContent pad) (1464 + pad + 8) 4 = some pgd := by
    have hbuf : forgedContent pad
        = header ++ dataPspHeaderOf ++ List.replicate pad 0 ++ magic ++ pgd ++ [] := by
      simp only [forgedContent, List.append_nil, header, magic]
    refine slice?_append _ _ hbuf ?_ rfl
    rw [List.length_append, hheaderOf, beforeMagic_length]
    rfl
  refine ⟨header, .psisoimg, hheader, by simp, ?_, ?_, ?_, ?_⟩
  · rw [hpsar]
    exact hmagic
  · rw [hpsar, signatureOffset]
    omega
  · rw [hpsar]
    exact hpgd
  · rw [show dataPspPtr header = 40 from rfl, hdata]
    decide +kernel

/-- Nothing of this file is a signature, yet its content id is accepted. -/
theorem getPbpContentId_forged :
    (forgedContent 2147481160).length < 2147483648 ∧
      (wholeFile (forgedContent 2147481160)).file.bind contentIdOf = none ∧
      ∃ res t, getPbpContentId (fun _ _ => 0) (some []) (wholeFile (forgedContent 2147481160))
        = .ok res t ∧ res ≠ 0 := by
  have hsize : (forgedContent 2147481160).length < 2147483648 := by
    rw [forgedContent_length]
    omega
  obtain ⟨hsome, hnone⟩ := (forged_forgedContent (by omega) (by omega)).differs hsize
  obtain ⟨res, t, ht, hanswers⟩ := getPbpContentId_whole (fun _ _ => 0) []
    (s := wholeFile (forgedContent 2147481160)) fun _ => rfl
  have hopen : ¬ (wholeFile (forgedContent 2147481160)).sceIoOpen < 0 := by
    rw [wholeFile]
    decide
  refine ⟨hsize, ?_, res, t, ht, hanswers.1.mpr ?_⟩
  · rw [Reading.file, if_neg hopen, Option.bind_some]
    exact hnone
  · rw [if_neg hopen]
    exact hsome

end VitaConnect.Pbp
