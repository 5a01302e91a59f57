import VitaConnect.Pbp.Reads

/-! # The type of an EBOOT.PBP

When every read delivers what the file has, `determine_pbp_type` computes `typeCode` of the content.
Its early exits answer 0, which is the code of NPUMDIMG, and the offset of the signature is an `int`: from
`2 ^ 31` on the seek goes elsewhere.
-/
namespace VitaConnect.Pbp
open CString Program
set_option autoImplicit false

/-! ## One call -/

def Reading.delivered (s : Reading) (size : ℕ) : List Byte :=
  (s.sceIoRead 0).delivered (s.content.drop s.pos) size

def Reading.ret (s : Reading) (size : ℕ) : ℤ := (s.sceIoRead 0).ret (s.content.drop s.pos) size

def Reading.behindRead (s : Reading) (size : ℕ) : Reading := { s with
  pos := s.pos + (s.delivered size).length
  sceIoRead := fun i => s.sceIoRead (i + 1)
  calls := s.calls ++ [.read size (s.delivered size) (s.ret size)] }

def Reading.behindSeek (s : Reading) (offset : ℤ) : Reading := { s with
  pos := if offset < 0 then s.pos else offset.toNat
  calls := s.calls ++ [.lseek offset] }

theorem readInto_apply (arr : List Byte) (s : Reading) :
    readInto arr s = .ok (s.ret arr.length, overwrite arr (s.delivered arr.length))
      (s.behindRead arr.length) := rfl

theorem sceIoLseek_bind {α : Type} (offset : ℤ) (f : PUnit → PbpM α) (s : Reading) :
    (sceIoLseek offset >>= f) s = f ⟨⟩ (s.behindSeek offset) := rfl

theorem openPbp_bind {α : Type} (f : ℤ → PbpM α) (s : Reading) :
    (openPbp >>= f) s = f s.sceIoOpen { s with pos := 0 } := rfl

theorem behindSeek_pos (s : Reading) (offset : ℕ) : (s.behindSeek offset).pos = offset := by
  rw [Reading.behindSeek]
  dsimp only
  rw [if_neg (by omega), Int.toNat_natCast]

theorem overwrite_of_complete {old new : List Byte} (h : new.length = old.length) :
    overwrite old new = new := by
  rw [overwrite, List.drop_of_length_le h.ge, List.append_nil]

theorem u32_of_lt {n : ℕ} (h : n < 4294967296) : u32 n = n := by
  unfold u32
  omega

/-! ## The answers -/

theorem isPsxSigned_code {mem : Stack} {offset c : ℤ} {pbpType : PbpType} {s t : Reading}
    (h : isPsxSigned mem offset pbpType s = .ok c t) : ∃ pbpType : PbpType, c = pbpType.code := by
  obtain ⟨-, u, -, h⟩ := bind_ok h
  obtain ⟨⟨readLen, pgdMagic⟩, v, -, h⟩ := bind_ok h
  dsimp only at h
  rw [ite_run, ite_run] at h
  split_ifs at h
  · exact ⟨.unknown, (EStateM.Result.ok.inj h).1.symm⟩
  · exact ⟨pbpType, (EStateM.Result.ok.inj h).1.symm⟩
  · exact ⟨.unknown, (EStateM.Result.ok.inj h).1.symm⟩

/-- `determine_pbp_type` answers the code of a type. -/
theorem determinePbpType_code {mem : Stack} {r : ℤ × List Byte} {s t : Reading}
    (h : determinePbpType mem s = .ok r t) : ∃ pbpType : PbpType, r.1 = pbpType.code := by
  have hpure : ∀ (pbpType : PbpType) {header : List Byte} {u : Reading},
      (EStateM.Result.ok (pbpType.code, header) u : EStateM.Result Fault Reading _) = .ok r t →
        ∃ pbpType : PbpType, r.1 = pbpType.code := by
    intro pbpType header u hu
    exact ⟨pbpType, (congrArg Prod.fst (EStateM.Result.ok.inj hu).1).symm⟩
  have hsigned : ∀ {offset : ℤ} {pbpType : PbpType} {header : List Byte} {u : Reading},
      (isPsxSigned mem offset pbpType >>= fun code => pure (code, header)) u = .ok r t →
        ∃ pbpType : PbpType, r.1 = pbpType.code := by
    intro offset pbpType header u hu
    obtain ⟨code, v, hcode, hu⟩ := bind_ok hu
    obtain ⟨pbpType', rfl⟩ := isPsxSigned_code hcode
    exact hpure pbpType' hu
  obtain ⟨⟨readSz, header⟩, u, -, h⟩ := bind_ok h
  dsimp only at h
  rw [ite_run] at h
  split_ifs at h
  · exact hpure .npumdimg h
  obtain ⟨-, v, -, h⟩ := bind_ok h
  obtain ⟨⟨readSz', magic⟩, w, -, h⟩ := bind_ok h
  dsimp only at h
  rw [ite_run, ite_run, ite_run, ite_run] at h
  split_ifs at h
  · exact hpure .npumdimg h
  · exact hpure .npumdimg h
  · exact hsigned h
  · exact hsigned h
  · exact hpure .unknown h

/-! ## Files read whole -/

/-- Every read delivers what the file has. -/
def Reading.Whole (s : Reading) : Prop := ∀ i, s.sceIoRead i = .full

/-- The same file, still read whole, with the same content id. -/
structure Continues (s t : Reading) : Prop where
  whole : t.Whole
  content : t.content = s.content
  contentId : t.contentId = s.contentId

section Whole
variable {α : Type} {s t u : Reading} {xs : List Byte}

theorem Continues.refl (h : s.Whole) : Continues s s := ⟨h, rfl, rfl⟩

theorem Continues.trans (h : Continues s t) (h' : Continues t u) : Continues s u :=
  ⟨h'.whole, h'.content.trans h.content, h'.contentId.trans h.contentId⟩

theorem Continues.behindRead (h : Continues s t) (size : ℕ) : Continues s (t.behindRead size) :=
  ⟨fun i => h.whole (i + 1), h.content, h.contentId⟩

theorem Continues.behindSeek (h : Continues s t) (offset : ℤ) : Continues s (t.behindSeek offset) :=
  ⟨h.whole, h.content, h.contentId⟩

theorem Reading.Whole.delivered (h : s.Whole) (size : ℕ) :
    s.delivered size = (s.content.drop s.pos).take size := by
  rw [Reading.delivered, h 0]
  rfl

theorem Reading.Whole.ret (h : s.Whole) (size : ℕ) : s.ret size = (s.delivered size).length := by
  rw [Reading.ret, Reading.delivered, h 0]
  rfl

theorem readInto_complete {arr : List Byte} (h : s.Whole)
    (hxs : slice? s.content s.pos arr.length = some xs) :
    readInto arr s = .ok ((arr.length : ℤ), xs) (s.behindRead arr.length) := by
  obtain ⟨htake, -⟩ := slice?_eq_some_iff.mp hxs
  have hlen : xs.length = arr.length := slice?_length hxs
  rw [readInto_apply, h.ret, h.delivered, htake, overwrite_of_complete hlen, hlen]

theorem Reading.Whole.behindRead_pos {size : ℕ} (h : s.Whole)
    (hxs : slice? s.content s.pos size = some xs) : (s.behindRead size).pos = s.pos + size := by
  obtain ⟨htake, -⟩ := slice?_eq_some_iff.mp hxs
  rw [Reading.behindRead]
  dsimp only
  rw [h.delivered, htake, slice?_length hxs]

/-- A structure that the file has from its position on is filled. -/
theorem bind_complete {mem : Stack} {x : Local} (h : s.Whole)
    (hxs : slice? s.content s.pos x.size = some xs) (f : ℤ × List Byte → PbpM α) :
    (readInto (mem.array x) >>= f) s = f ((x.size : ℤ), xs) (s.behindRead x.size) := by
  have hsize : (mem.array x).length = x.size := mem.array_length x
  rw [bind_apply, readInto_complete h (by rw [hsize, hxs]), hsize]

/-- At the end of the file the answer of the read is too small. -/
theorem bind_incomplete (mem : Stack) (x : Local) (h : s.Whole)
    (hnone : slice? s.content s.pos x.size = none) (f : ℤ × List Byte → PbpM α) :
    ∃ len ys, u32 len < x.size ∧
      (readInto (mem.array x) >>= f) s = f (len, ys) (s.behindRead x.size) := by
  have hsize : (mem.array x).length = x.size := mem.array_length x
  have hshort := slice?_eq_none_iff.mp hnone
  have hpos : 0 < x.size ∧ x.size < 4294967296 := by cases x <;> decide
  have hlen : (s.delivered x.size).length < x.size := by
    rw [h.delivered, List.length_take, List.length_drop]
    omega
  refine ⟨s.ret x.size, _, ?_, by rw [bind_apply, readInto_apply, hsize]⟩
  rw [h.ret, u32_of_lt (by omega)]
  exact hlen

end Whole

/-! ## The type of a file read whole -/

/-- Where the file stands when the signature of an image at `psar` is read. -/
def signaturePos (psar : ℕ) (pbpType : PbpType) : ℕ :=
  if psar + signatureOffset pbpType < 2147483648 then psar + signatureOffset pbpType
  else if psar + signatureOffset pbpType < 4294967296 then psar + 8
  else psar + signatureOffset pbpType - 4294967296

def signedCode (content : List Byte) (psar : ℕ) (pbpType : PbpType) : ℤ :=
  if slice? content (signaturePos psar pbpType) 4 = some pgd then pbpType.code
  else PbpType.unknown.code

def typeCode (content : List Byte) : ℤ :=
  match slice? content 0 40 with
  | none => 0
  | some header =>
    match slice? content (dataPsarPtr header) 8 with
    | none => 0
    | some magic =>
      if magic = bytes "NPUMDIMG" then PbpType.npumdimg.code
      else if magic = bytes "PSISOIMG" then signedCode content (dataPsarPtr header) .psisoimg
      else if magic = bytes "PSTITLEI" then signedCode content (dataPsarPtr header) .pstitleimg
      else PbpType.unknown.code

theorem word32_lt (struct : List Byte) (off : ℕ) : word32 struct off < 4294967296 := by
  refine lt_of_lt_of_le (leWord_lt _) (Nat.pow_le_pow_right (by norm_num) ?_ : _ ≤ 256 ^ 4)
  rw [List.length_take]
  omega

theorem isPsxSigned_whole (mem : Stack) {s : Reading} (h : s.Whole) {psar : ℕ}
    (hpsar : psar < 4294967296) (hpos : s.pos = psar + 8) (pbpType : PbpType) :
    ∃ t, isPsxSigned mem (i32 psar) pbpType s = .ok (signedCode s.content psar pbpType) t ∧
      Continues s t := by
  set off := i32 (i32 psar + signatureOffset pbpType) with hoffset
  have hpos' : (s.behindSeek off).pos = signaturePos psar pbpType := by
    have hoff : signatureOffset pbpType ≤ 0x400 := by cases pbpType <;> decide
    unfold Reading.behindSeek signaturePos
    unfold i32 at hoffset
    dsimp only
    split_ifs <;> omega
  have hsought : Continues s (s.behindSeek off) := (Continues.refl h).behindSeek off
  have hslice : slice? (s.behindSeek off).content (s.behindSeek off).pos Local.pgdMagic.size
      = slice? s.content (signaturePos psar pbpType) 4 := by
    rw [hpos', hsought.content, Local.size]
  refine ⟨(s.behindSeek off).behindRead 4, ?_, hsought.behindRead 4⟩
  rw [isPsxSigned, sceIoLseek_bind, signedCode, ← hslice]
  cases hsig : slice? (s.behindSeek off).content (s.behindSeek off).pos Local.pgdMagic.size with
  | none =>
    obtain ⟨len, ys, hlen, hread⟩ := bind_incomplete mem .pgdMagic hsought.whole hsig _
    rw [hread]
    dsimp only
    rw [if_pos hlen, if_neg nofun]
    rfl
  | some xs =>
    rw [bind_complete hsought.whole hsig]
    dsimp only
    rw [if_neg (by decide)]
    simp only [Option.some.injEq]
    split <;> rfl

/-- The header is what the file has, when it has one. -/
theorem determinePbpType_whole (mem : Stack) {s : Reading} (h : s.Whole) (hpos : s.pos = 0) :
    ∃ header t, determinePbpType mem s = .ok (typeCode s.content, header) t ∧ Continues s t ∧
      ∀ xs, slice? s.content 0 40 = some xs → header = xs := by
  unfold determinePbpType typeCode
  cases hheader : slice? s.content 0 40 with
  | none =>
    obtain ⟨len, header, hlen, hread⟩ := bind_incomplete mem .pbpHeader h
      (by rw [hpos]; exact hheader) _
    rw [hread]
    dsimp only
    rw [if_pos hlen]
    exact ⟨header, _, rfl, (Continues.refl h).behindRead _, nofun⟩
  | some header =>
    rw [bind_complete (x := .pbpHeader) h (by rw [hpos]; exact hheader)]
    dsimp only
    rw [if_neg (by decide), sceIoLseek_bind]
    set u := (s.behindRead Local.pbpHeader.size).behindSeek (dataPsarPtr header)
    have hu : Continues s u := ((Continues.refl h).behindRead _).behindSeek _
    have hupos : u.pos = dataPsarPtr header := behindSeek_pos _ _
    have hend : ∀ (code : ℤ) (t : Reading), Continues s t → ∃ header' t',
        (pure (code, header) : PbpM (ℤ × List Byte)) t = .ok (code, header') t' ∧ Continues s t' ∧
          ∀ xs, some header = some xs → header' = xs :=
      fun code t ht => ⟨header, t, rfl, ht, fun xs hxs => Option.some.inj hxs⟩
    cases hmagic : slice? s.content (dataPsarPtr header) 8 with
    | none =>
      obtain ⟨len, magic, hlen, hread⟩ := bind_incomplete mem .dataPsarMagic hu.whole
        (by rw [hupos, hu.content]; exact hmagic) _
      rw [hread]
      dsimp only
      rw [if_pos hlen]
      exact hend _ _ (hu.behindRead _)
    | some magic =>
      rw [bind_complete (x := .dataPsarMagic) hu.whole (by rw [hupos, hu.content]; exact hmagic)]
      have hv : Continues s (u.behindRead 8) := hu.behindRead 8
      have hsigned : ∀ pbpType, ∃ header' t', (isPsxSigned mem (i32 (dataPsarPtr header)) pbpType
          >>= fun code => pure (code, header)) (u.behindRead 8)
            = .ok (signedCode s.content (dataPsarPtr header) pbpType, header') t' ∧
          Continues s t' ∧ ∀ xs, some header = some xs → header' = xs := by
        intro pbpType
        have hpsx : (u.behindRead 8).pos = dataPsarPtr header + 8 := by
          rw [hu.whole.behindRead_pos (by rw [hupos, hu.content]; exact hmagic), hupos]
        have hlt : dataPsarPtr header < 4294967296 := word32_lt _ _
        obtain ⟨t, ht, htv⟩ := isPsxSigned_whole mem hv.whole hlt hpsx pbpType
        rw [bind_apply, ht, hv.content]
        exact hend _ t (hv.trans htv)
      dsimp only
      rw [if_neg (by decide)]
      split_ifs
      · exact hend _ _ hv
      · exact hsigned .psisoimg
      · exact hsigned .pstitleimg
      · exact hend _ _ hv

/-! ## The type that a file should have -/

/-- A PS1 image is recognised when it is signed. -/
def signedType (content : List Byte) (psar : ℕ) (pbpType : PbpType) : PbpType :=
  if slice? content (psar + signatureOffset pbpType) 4 = some pgd then pbpType else .unknown

def contentType (content : List Byte) : PbpType :=
  match slice? content 0 40 with
  | none => .unknown
  | some header =>
    match slice? content (dataPsarPtr header) 8 with
    | none => .unknown
    | some magic =>
      if magic = bytes "NPUMDIMG" then .npumdimg
      else if magic = bytes "PSISOIMG" then signedType content (dataPsarPtr header) .psisoimg
      else if magic = bytes "PSTITLEI" then signedType content (dataPsarPtr header) .pstitleimg
      else .unknown

/-- The type of a file; one that cannot be opened is not recognised. -/
def fileType (file : Option (List Byte)) : PbpType := file.elim .unknown contentType

def Reading.file (s : Reading) : Option (List Byte) := if s.sceIoOpen < 0 then none else some s.content

/-- The four bytes from which the signature is taken answer as those of the signature do. -/
def SignatureFound (content : List Byte) (psar : ℕ) (pbpType : PbpType) : Prop :=
  slice? content (signaturePos psar pbpType) 4 = some pgd ↔
    slice? content (psar + signatureOffset pbpType) 4 = some pgd

/-- The file opens, its header and its magic are complete, and the signature of a PS1 image is
looked for in its place. -/
def Classifiable (s : Reading) : Prop :=
  0 ≤ s.sceIoOpen ∧ ∃ header magic, slice? s.content 0 40 = some header ∧
    slice? s.content (dataPsarPtr header) 8 = some magic ∧
    (magic = bytes "PSISOIMG" → SignatureFound s.content (dataPsarPtr header) .psisoimg) ∧
    (magic = bytes "PSTITLEI" → SignatureFound s.content (dataPsarPtr header) .pstitleimg)

theorem signatureFound_of_lt {content : List Byte} {psar : ℕ} {pbpType : PbpType}
    (h : psar + signatureOffset pbpType < 2147483648) : SignatureFound content psar pbpType := by
  rw [SignatureFound, signaturePos, if_pos h]

theorem getPbpType_whole (mem : Stack) (path : CStr) {s : Reading} (h : s.Whole) :
    ∃ t, getPbpType mem (some path) s = .ok (if s.sceIoOpen < 0 then 0 else typeCode s.content) t := by
  have hopened : (Reading.Whole { s with pos := 0 }) := h
  obtain ⟨header, t, ht, -, -⟩ := determinePbpType_whole mem hopened rfl
  rw [getPbpType, openPbp_bind]
  by_cases hopen : s.sceIoOpen < 0
  · rw [if_pos hopen, if_pos hopen]
    exact ⟨{ s with pos := 0 }, rfl⟩
  · rw [if_neg hopen, if_neg hopen, bind_apply, ht]
    exact ⟨t, rfl⟩

theorem signedCode_eq_iff {content : List Byte} {psar : ℕ} {pbpType : PbpType}
    (hne : pbpType.code ≠ PbpType.unknown.code) :
    signedCode content psar pbpType = (signedType content psar pbpType).code ↔
      SignatureFound content psar pbpType := by
  unfold signedCode signedType SignatureFound
  split <;> split <;> simp_all [eq_comm]

theorem typeCode_eq_iff (content : List Byte) :
    typeCode content = (contentType content).code ↔
      ∃ header magic, slice? content 0 40 = some header ∧
        slice? content (dataPsarPtr header) 8 = some magic ∧
        (magic = bytes "PSISOIMG" → SignatureFound content (dataPsarPtr header) .psisoimg) ∧
        (magic = bytes "PSTITLEI" → SignatureFound content (dataPsarPtr header) .pstitleimg) := by
  unfold typeCode contentType
  cases hheader : slice? content 0 40 with
  | none =>
    simp only [reduceCtorEq, false_and, exists_false, iff_false]
    decide
  | some header =>
    simp only [Option.some.injEq, exists_and_left, exists_eq_left']
    cases hmagic : slice? content (dataPsarPtr header) 8 with
    | none =>
      simp only [reduceCtorEq, false_and, exists_false, iff_false]
      decide
    | some magic =>
      simp only [Option.some.injEq, exists_eq_left']
      by_cases hnpumdimg : magic = bytes "NPUMDIMG"
      · subst hnpumdimg
        simp only [if_true, true_iff]
        exact ⟨fun h => absurd h (by decide), fun h => absurd h (by decide)⟩
      by_cases hpsisoimg : magic = bytes "PSISOIMG"
      · subst hpsisoimg
        rw [if_neg hnpumdimg, if_neg hnpumdimg, if_pos rfl, if_pos rfl,
          signedCode_eq_iff (by decide)]
        exact ⟨fun h => ⟨fun _ => h, fun h' => absurd h' (by decide)⟩, fun h => h.1 rfl⟩
      by_cases hpstitlei : magic = bytes "PSTITLEI"
      · subst hpstitlei
        rw [if_neg hnpumdimg, if_neg hnpumdimg, if_neg hpsisoimg, if_neg hpsisoimg, if_pos rfl,
          if_pos rfl, signedCode_eq_iff (by decide)]
        exact ⟨fun h => ⟨fun h' => absurd h' (by decide), fun _ => h⟩, fun h => h.2 rfl⟩
      · simp only [hnpumdimg, hpsisoimg, hpstitlei, if_false, false_implies, true_and]

/-- **`get_pbp_type` on a file read whole.** It answers the type of the file exactly when the file is
classifiable. -/
theorem getPbpType_exact_iff (mem : Stack) (path : CStr) (s : Reading) (h : s.Whole) :
    (∃ t, getPbpType mem (some path) s = .ok (fileType s.file).code t) ↔ Classifiable s := by
  obtain ⟨t, ht⟩ := getPbpType_whole mem path h
  have hanswer : (∃ t, getPbpType mem (some path) s = .ok (fileType s.file).code t) ↔
      (if s.sceIoOpen < 0 then 0 else typeCode s.content) = (fileType s.file).code := by
    rw [ht]
    constructor
    · rintro ⟨u, hu⟩
      exact (EStateM.Result.ok.inj hu).1
    · intro hcode
      exact ⟨t, by rw [hcode]⟩
  rw [hanswer, Classifiable, Reading.file]
  by_cases hopen : s.sceIoOpen < 0
  · simp only [hopen, if_true, not_le.mpr hopen, false_and, iff_false]
    decide
  · simp only [hopen, if_false, not_lt.mp hopen, true_and]
    exact typeCode_eq_iff s.content

/-- A header whose pointers are `psp` and `psar`. -/
def pbpHeaderOf (psp psar : ℕ) : List Byte :=
  List.replicate 32 0 ++ leBytes 4 psp ++ leBytes 4 psar

theorem pbpHeaderOf_length (psp psar : ℕ) : (pbpHeaderOf psp psar).length = 40 := by
  simp [pbpHeaderOf]

def wholeFile (content : List Byte) : Reading where
  sceIoOpen := 3
  content := content
  pos := 0
  sceIoRead := fun _ => .full
  malloc := none
  contentId := []
  calls := []

theorem getPbpType_exact_iff_npumdimg :
    ∃ t, getPbpType (fun _ _ => 0) (some []) (wholeFile (pbpHeaderOf 0 40 ++ bytes "NPUMDIMG"))
      = .ok PbpType.npumdimg.code t :=
  (getPbpType_exact_iff _ _ (wholeFile (pbpHeaderOf 0 40 ++ bytes "NPUMDIMG")) fun _ => rfl).mpr
    ⟨by decide, pbpHeaderOf 0 40, bytes "NPUMDIMG", rfl, rfl, fun h => absurd h (by decide),
      fun h => absurd h (by decide)⟩

/-- An empty file is answered 0, which is NPUMDIMG. -/
theorem getPbpType_empty :
    ∃ t, getPbpType (fun _ _ => 0) (some []) (wholeFile []) = .ok PbpType.npumdimg.code t ∧
      fileType (wholeFile []).file = .unknown := ⟨_, rfl, rfl⟩

end VitaConnect.Pbp
