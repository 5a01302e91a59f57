import VitaConnect.Pbp.HashWhole
import VitaConnect.CString.Format
import VitaConnect.Hash.Sha256

/-! # The signature of an EBOOT.PBP

`gen_sce_ebootpbp` hands a digest of the file, or the record of its disc, to the generator of its type, and
writes what the generator makes of it. A file that has no complete header is taken for a PSP image, and its
signature is generated from 32 zeros.
-/
namespace VitaConnect.Pbp
open CString Program Hash
set_option autoImplicit false

/-! ## The digest -/

def Call.update? : Call → Option (List Byte)
  | .sha256Update data => some data
  | _ => none

/-- `hash_pbp`, and what is in `out_hash` behind it: the early exit makes no `sha256_update`, and every other
one ends in `sha256_final`. `stack` is what the context holds at first. -/
def hashPbpInto (mem : Stack) (stack : Vector Byte 64) (outHash : List Byte) : PbpM (ℤ × List Byte) := do
  let before ← get
  let res ← hashPbp mem
  let after ← get
  let pieces := (after.calls.drop before.calls.length).filterMap Call.update?
  if pieces = [] then pure (res, outHash)
  else pure (res, sha256Final (pieces.foldl Hash.sha256Update (sha256Init stack)) outHash)

/-! ## The record of a disc -/

/-- `strncmp(a, b, n) == 0` -/
def strncmpEq : ℕ → List Byte → List Byte → Bool
  | 0, _, _ => true
  | n + 1, a, b => a.headD 0 == b.headD 0 && (a.headD 0 == 0 || strncmpEq n a.tail b.tail)

def discinfoLoop (discId : CStr) : ℕ → List Byte → PbpM (List Byte)
  | 0, _ => throw .running
  | fuel + 1, sceDiscinfo => do
    let (readSize, sceDiscinfo) ← readInto sceDiscinfo
    if strncmpEq 9 sceDiscinfo discId then pure sceDiscinfo
    else if 0x100 ≤ readSize then discinfoLoop discId fuel sceDiscinfo
    else pure sceDiscinfo

/-- What is in `sce_discinfo` behind the call; the state is that of `__sce_discinfo`. -/
def getSceDiscinfoSig (discId : CStr) : PbpM (List Byte) := do
  let sceDiscinfo := List.replicate 0x100 0
  let discinfoFd ← openPbp
  if discinfoFd < 0 then pure sceDiscinfo
  else
    let s ← get
    discinfoLoop discId (s.content.length + 1) sceDiscinfo

/-! ## The signature -/

/-- What the console does with the paths and arrays that it is handed. -/
structure Console where
  /-- `_vshNpDrmEbootSigGen…` of a type: the answer, and what `sce_ebootpbp` has behind it -/
  sigGen : PbpType → CStr → List Byte → ℤ × List Byte
  writeFile : CStr → List Byte → ℤ
  /-- `vs0:app/NPXS10028/__sce_discinfo` -/
  discinfo : Reading

structure Signing where
  ret : ℤ
  /-- The call of a generator -/
  generated : Option (PbpType × CStr × List Byte)
  /-- The call of `WriteFile` -/
  written : Option (CStr × List Byte)

def Signing.nothing (ret : ℤ) : Signing := ⟨ret, none, none⟩

/-- A call of the generator of a type, and the write that follows an answer that is not negative -/
def Console.sign (console : Console) (pbpType : PbpType) (ebootpbpPath sceEbootpbpPath : CStr)
    (data : List Byte) : Signing :=
  let (res, sceEbootpbp) := console.sigGen pbpType ebootpbpPath data
  if 0 ≤ res then
    ⟨console.writeFile sceEbootpbpPath sceEbootpbp, some (pbpType, ebootpbpPath, data),
      some (sceEbootpbpPath, sceEbootpbp)⟩
  else ⟨res, some (pbpType, ebootpbpPath, data), none⟩

/-- A fault in the reading of `__sce_discinfo` is one of the function. -/
def runOn {α : Type} (other : Reading) (x : PbpM α) : PbpM α := fun s =>
  match x other with
  | .ok a _ => .ok a s
  | .error e _ => .error e s

def genSceEbootpbp (console : Console) (mem : Stack) (stack : Vector Byte 64) (pspGameFolder : Option CStr)
    (discId : CStr) : PbpM Signing := do
  match pspGameFolder with
  | none => pure (.nothing 0)
  | some folder =>
    let ebootpbpPath := snprintf 1024 (folder ++ bytes "/EBOOT.PBP")
    let sceEbootpbpPath := snprintf 1024 (folder ++ bytes "/__sce_ebootpbp")
    let pbpHash := List.replicate 0x20 0
    let pbpFd ← openPbp
    if pbpFd < 0 then pure (.nothing 0)
    else
      let (pbpType, _) ← determinePbpType mem
      if pbpType = PbpType.psisoimg.code then
        let (_, pbpHash) ← hashPbpInto mem stack pbpHash
        pure (console.sign .psisoimg ebootpbpPath sceEbootpbpPath pbpHash)
      else if pbpType = PbpType.npumdimg.code then
        let (_, pbpHash) ← hashPbpInto mem stack pbpHash
        pure (console.sign .npumdimg ebootpbpPath sceEbootpbpPath pbpHash)
      else if pbpType = PbpType.pstitleimg.code then
        let sceDiscinfo ← runOn console.discinfo (getSceDiscinfoSig discId)
        pure (console.sign .pstitleimg ebootpbpPath sceEbootpbpPath sceDiscinfo)
      else pure (.nothing 0)

/-! ## The digest of a file read whole -/

theorem updates_flatten (calls : List Call) :
    (calls.filterMap Call.update?).flatten = sha256Input calls := by
  induction calls with
  | nil => rfl
  | cons c calls ih =>
    cases c with
    | sha256Update data => rw [sha256Input_update, ← ih]; rfl
    | read size delivered ret => rw [sha256Input_read, ← ih]; rfl
    | lseek offset => rw [sha256Input_lseek, ← ih]; rfl
    | malloc size => exact ih

theorem hashPbp_short (mem : Stack) {s : Reading} (hwhole : s.Whole) (hlen : s.content.length < 40) :
    ∃ ret t calls, hashPbp mem s = .ok ret t ∧ t.calls = s.calls ++ calls ∧
      calls.filterMap Call.update? = [] := by
  have hu : (s.behindSeek 0).Whole := hwhole
  have hdelivered : (s.behindSeek 0).delivered 0x7c0 = s.content := by
    rw [hu.delivered_rest]
    show (s.content.drop 0).take 0x7c0 = s.content
    rw [List.drop_zero, List.take_of_length_le (by omega)]
  refine ⟨(s.behindSeek 0).ret 0x7c0, (s.behindSeek 0).behindRead 0x7c0,
    [.lseek 0, .read 0x7c0 s.content ((s.behindSeek 0).ret 0x7c0)], ?_, ?_, rfl⟩
  · rw [hashPbp_apply]
    exact hashRun_short (hu.not_fails 0) (by rw [hdelivered]; exact hlen)
  · rw [behindRead_calls, behindSeek_calls, hdelivered, List.append_assoc]
    rfl

/-- What the 32 bytes of a hash are behind `hash_pbp` of a file read whole. -/
noncomputable def contentHash (content : List Byte) : List Byte :=
  if content.length < 40 then List.replicate 0x20 0
  else Standard.sha256 (content.take (dataPsarPtr content + 0x1C0000))

theorem hashPbpInto_whole (mem : Stack) (stack : Vector Byte 64) {s : Reading} (hwhole : s.Whole)
    (hpsar : dataPsarPtr s.content + 0x1C0000 < 4294967296)
    (hfits : SumFits (dataPsarPtr s.content + 0x1C0000) s.content.length) :
    ∃ ret t, hashPbpInto mem stack (List.replicate 0x20 0) s = .ok (ret, contentHash s.content) t := by
  have hdrop (calls : List Call) : (s.calls ++ calls).drop s.calls.length = calls := List.drop_left
  by_cases hlen : s.content.length < 40
  · obtain ⟨ret, t, calls, hrun, hcalls, hnone⟩ := hashPbp_short mem hwhole hlen
    refine ⟨ret, t, ?_⟩
    rw [hashPbpInto, bind_of_ok (get_apply s), bind_of_ok hrun, bind_of_ok (get_apply t), hcalls, hdrop,
      if_pos hnone, contentHash, if_pos hlen]
    rfl
  · obtain ⟨t, calls, hrun, hcalls, hiff⟩ := hashPbp_whole mem hwhole (not_lt.mp hlen) hpsar
    have hinput := hiff.mpr hfits
    rw [← updates_flatten, min_comm, ← List.take_eq_take_min] at hinput
    have hsome : calls.filterMap Call.update? ≠ [] := by
      intro hnil
      rw [hnil] at hinput
      have hzero := congrArg List.length hinput
      rw [List.length_take] at hzero
      simp only [List.flatten_nil, List.length_nil] at hzero
      omega
    have hread : Sha256Read ((calls.filterMap Call.update?).foldl Hash.sha256Update (sha256Init stack))
        ([] ++ (calls.filterMap Call.update?).flatten) := (sha256Init_read stack).updates _
    refine ⟨1, t, ?_⟩
    rw [hashPbpInto, bind_of_ok (get_apply s), bind_of_ok hrun, bind_of_ok (get_apply t), hcalls, hdrop,
      if_neg hsome, hread.final (by decide), contentHash, if_neg hlen, List.nil_append, hinput,
      List.drop_of_length_le (by decide), List.append_nil]
    rfl

/-! ## The record of a disc read whole -/

section Discinfo
variable {discId : CStr}

/-- The whole records of a file -/
def discRecords (content : List Byte) : List (List Byte) :=
  (List.range (content.length / 0x100)).map (blockAt 0x100 content)

/-- The first record that begins with the disc id, or what the last reads leave in the array -/
def discinfoOf (discId : CStr) (content old : List Byte) : List Byte :=
  ((discRecords content).find? (strncmpEq 9 · discId)).getD
    (overwrite ((discRecords content).getLastD old) (content.drop (0x100 * (content.length / 0x100))))

theorem discRecords_short {content : List Byte} (h : content.length < 0x100) : discRecords content = [] := by
  rw [discRecords, Nat.div_eq_of_lt h]
  rfl

theorem discRecords_long {content : List Byte} (h : 0x100 ≤ content.length) :
    discRecords content = content.take 0x100 :: discRecords (content.drop 0x100) := by
  have hdiv : content.length / 0x100 = (content.length - 0x100) / 0x100 + 1 := by omega
  rw [discRecords, hdiv, List.range_succ_eq_map, List.map_cons, List.map_map, discRecords, List.length_drop]
  congr 1
  refine List.map_congr_left fun i _ => ?_
  rw [Function.comp_apply, blockAt, blockAt, List.drop_drop, Nat.mul_succ, Nat.add_comm]

theorem discinfoOf_short {content : List Byte} (old : List Byte) (h : content.length < 0x100) :
    discinfoOf discId content old = overwrite old content := by
  rw [discinfoOf, discRecords_short h, Nat.div_eq_of_lt h]
  rfl

theorem discinfoOf_long {content : List Byte} (old : List Byte) (h : 0x100 ≤ content.length) :
    discinfoOf discId content old = if strncmpEq 9 (content.take 0x100) discId then content.take 0x100
      else discinfoOf discId (content.drop 0x100) (content.take 0x100) := by
  have hdiv : 0x100 * (content.length / 0x100) = 0x100 + 0x100 * ((content.length - 0x100) / 0x100) := by omega
  rw [discinfoOf, discRecords_long h, List.find?_cons, hdiv, ← List.drop_drop]
  split_ifs with hmatch
  · rw [hmatch]
    rfl
  · rw [Bool.not_eq_true] at hmatch
    rw [hmatch, discinfoOf, List.length_drop, List.getLastD_cons]

theorem discinfoLoop_whole {fuel : ℕ} {s : Reading} {old : List Byte} (hwhole : s.Whole)
    (hold : old.length = 0x100) (hfuel : s.rest.length / 0x100 < fuel) :
    ∃ t, discinfoLoop discId fuel old s = .ok (discinfoOf discId s.rest old) t := by
  induction fuel generalizing s old with
  | zero => exact absurd hfuel (Nat.not_lt_zero _)
  | succ fuel ih =>
    have hread : readInto old s = .ok (((s.rest.take 0x100).length : ℤ), overwrite old (s.rest.take 0x100))
        (s.behindRead 0x100) := by
      rw [readInto_apply, hold, hwhole.ret, hwhole.delivered_rest]
    rw [discinfoLoop, bind_of_ok hread]
    dsimp only
    by_cases hlong : 0x100 ≤ s.rest.length
    · have htake : (s.rest.take 0x100).length = 0x100 := List.length_take_of_le hlong
      have hover : overwrite old (s.rest.take 0x100) = s.rest.take 0x100 :=
        overwrite_of_complete (by rw [htake, hold])
      have hrest : (s.behindRead 0x100).rest = s.rest.drop 0x100 := by
        show s.content.drop (s.pos + (s.delivered 0x100).length) = _
        rw [hwhole.delivered_rest, htake, Reading.rest, List.drop_drop]
      rw [hover, htake, discinfoOf_long old hlong]
      split_ifs with hmatch
      · exact ⟨_, rfl⟩
      · have hnext := ih (s := s.behindRead 0x100) (fun i => hwhole (i + 1)) htake
          (by rw [hrest, List.length_drop]; omega)
        rw [hrest] at hnext
        exact hnext
      · exact absurd (le_refl _) ‹_›
    · have htake : s.rest.take 0x100 = s.rest := List.take_of_length_le (by omega)
      have hend : ¬ (0x100 : ℤ) ≤ s.rest.length := by omega
      rw [htake, discinfoOf_short old (not_le.mp hlong), if_neg hend, ite_self]
      exact ⟨_, rfl⟩

/-- What `get_sce_discinfo_sig` leaves of a file read whole -/
def discinfoSig (discinfo : Reading) (discId : CStr) : List Byte :=
  if discinfo.sceIoOpen < 0 then List.replicate 0x100 0
  else discinfoOf discId discinfo.content (List.replicate 0x100 0)

theorem getSceDiscinfoSig_whole (discId : CStr) {discinfo : Reading} (hwhole : discinfo.Whole) :
    ∃ t, getSceDiscinfoSig discId discinfo = .ok (discinfoSig discinfo discId) t := by
  rw [getSceDiscinfoSig, openPbp_bind, discinfoSig]
  split_ifs with hopen
  · exact ⟨_, rfl⟩
  · have hrest : Reading.rest { discinfo with pos := 0 } = discinfo.content := List.drop_zero
    have hfuel : (Reading.rest { discinfo with pos := 0 }).length / 0x100 < discinfo.content.length + 1 := by
      rw [hrest]
      exact Nat.lt_succ_of_le (Nat.div_le_self _ _)
    have hloop : ∃ t, discinfoLoop discId (discinfo.content.length + 1) (List.replicate 0x100 0)
        { discinfo with pos := 0 } = .ok (discinfoOf discId (Reading.rest { discinfo with pos := 0 })
          (List.replicate 0x100 0)) t := discinfoLoop_whole hwhole List.length_replicate hfuel
    rw [hrest] at hloop
    exact hloop

end Discinfo

/-! ## The signature of a file read whole -/

/-- The type and the data that a signature is generated from. -/
noncomputable def signedData (discinfo : Reading) (discId : CStr) (content : List Byte) :
    Option (PbpType × List Byte) :=
  if typeCode content = PbpType.psisoimg.code then some (.psisoimg, contentHash content)
  else if typeCode content = PbpType.npumdimg.code then some (.npumdimg, contentHash content)
  else if typeCode content = PbpType.pstitleimg.code then some (.pstitleimg, discinfoSig discinfo discId)
  else none

/-- What becomes of the data to sign -/
def Console.signs (console : Console) (folder : CStr) (data : Option (PbpType × List Byte)) : Signing :=
  data.elim (.nothing 0) fun typed => console.sign typed.1 (snprintf 1024 (folder ++ bytes "/EBOOT.PBP"))
    (snprintf 1024 (folder ++ bytes "/__sce_ebootpbp")) typed.2

theorem runOn_ok {α : Type} {other t : Reading} {x : PbpM α} {a : α} (h : x other = .ok a t) (s : Reading) :
    runOn other x s = .ok a s := by
  rw [runOn, h]

/-- **The signature of an EBOOT.PBP.** Of a file read whole, `gen_sce_ebootpbp` has the signature of its type
generated from the SHA-256 of the file up to its hash size, or from the first record of the disc, and writes it
exactly when the generator does not answer an error. Its hash size does not wrap, and neither does the sum that
is compared with it (`SumFits`). A file without a complete header counts as a PSP image, and its signature is
generated from 32 zeros. -/
theorem genSceEbootpbp_signs (console : Console) (mem : Stack) (stack : Vector Byte 64) (folder discId : CStr)
    (s : Reading) (hwhole : s.Whole) (hdiscinfo : console.discinfo.Whole) (hopen : 0 ≤ s.sceIoOpen)
    (hpsar : dataPsarPtr s.content + 0x1C0000 < 4294967296)
    (hfits : SumFits (dataPsarPtr s.content + 0x1C0000) s.content.length) :
    ∃ t, genSceEbootpbp console mem stack (some folder) discId s
      = .ok (console.signs folder (signedData console.discinfo discId s.content)) t := by
  have hopened : Reading.Whole { s with pos := 0 } := hwhole
  obtain ⟨header, t, ht, hcontinues, -⟩ := determinePbpType_whole mem hopened rfl
  have hcontent : t.content = s.content := hcontinues.content
  obtain ⟨ret, u, hhash⟩ := hashPbpInto_whole mem stack hcontinues.whole (by rw [hcontent]; exact hpsar)
    (by rw [hcontent]; exact hfits)
  rw [hcontent] at hhash
  obtain ⟨v, hrecord⟩ := getSceDiscinfoSig_whole discId hdiscinfo
  rw [genSceEbootpbp]
  dsimp only
  rw [openPbp_bind, if_neg hopen.not_gt, bind_of_ok ht, signedData]
  dsimp only
  split_ifs
  · exact ⟨u, bind_of_ok hhash⟩
  · exact ⟨u, bind_of_ok hhash⟩
  · exact ⟨t, bind_of_ok (runOn_ok hrecord t)⟩
  · exact ⟨t, rfl⟩

/-- A PS1 image with its header, its magic and its signature -/
def psxImage : List Byte := pbpHeaderOf 0 40 ++ bytes "PSISOIMG" ++ List.replicate 0x3F8 0 ++ pgd

/-- An image of several discs -/
def titleImage : List Byte := pbpHeaderOf 0 40 ++ bytes "PSTITLEI" ++ List.replicate 0x1F8 0 ++ pgd

def discRecord : List Byte := bytes "SLES00000" ++ List.replicate 0xF7 1

/-- Generators that sign with what they are given, and a disc info with the record of another disc first -/
def signingConsole : Console where
  sigGen _ _ data := (0, data)
  writeFile _ _ := 0x200
  discinfo := wholeFile (List.replicate 0x100 65 ++ discRecord)

theorem genSceEbootpbp_signs_images :
    (∃ t, genSceEbootpbp signingConsole (fun _ _ => 0) (Vector.replicate 64 0) (some (bytes "ux0:pspemu"))
        (bytes "SLES00000") (wholeFile psxImage) =
      .ok ⟨0x200, some (.psisoimg, bytes "ux0:pspemu/EBOOT.PBP", Standard.sha256 psxImage),
        some (bytes "ux0:pspemu/__sce_ebootpbp", Standard.sha256 psxImage)⟩ t) ∧
    ∃ t, genSceEbootpbp signingConsole (fun _ _ => 0) (Vector.replicate 64 0) (some (bytes "ux0:pspemu"))
        (bytes "SLES00000") (wholeFile titleImage) =
      .ok ⟨0x200, some (.pstitleimg, bytes "ux0:pspemu/EBOOT.PBP", discRecord),
        some (bytes "ux0:pspemu/__sce_ebootpbp", discRecord)⟩ t := by
  constructor
  · have hpsar : dataPsarPtr psxImage = 40 := by decide +kernel
    have hlen : psxImage.length = 1068 := by decide +kernel
    have hcode : typeCode psxImage = PbpType.psisoimg.code := by decide +kernel
    obtain ⟨t, ht⟩ := genSceEbootpbp_signs signingConsole (fun _ _ => 0) (Vector.replicate 64 0)
      (bytes "ux0:pspemu") (bytes "SLES00000") (wholeFile psxImage) (fun _ => rfl) (fun _ => rfl) (by decide)
      (by show dataPsarPtr psxImage + 0x1C0000 < 4294967296; rw [hpsar]; decide)
      (Or.inr (by show psxImage.length < 4294967296; rw [hlen]; decide))
    have hhash : contentHash psxImage = Standard.sha256 psxImage := by
      rw [contentHash, if_neg (by rw [hlen]; decide), hpsar, List.take_of_length_le (by rw [hlen]; decide)]
    have hdata : signedData signingConsole.discinfo (bytes "SLES00000") psxImage
        = some (.psisoimg, Standard.sha256 psxImage) := by
      rw [signedData, if_pos hcode, hhash]
    refine ⟨t, ht.trans ?_⟩
    show EStateM.Result.ok (signingConsole.signs _ (signedData _ _ psxImage)) t = _
    rw [hdata]
    rfl
  · have hpsar : dataPsarPtr titleImage = 40 := by decide +kernel
    have hlen : titleImage.length = 556 := by decide +kernel
    have hcode : typeCode titleImage = PbpType.pstitleimg.code := by decide +kernel
    have hrecord : discinfoSig signingConsole.discinfo (bytes "SLES00000") = discRecord := by decide +kernel
    obtain ⟨t, ht⟩ := genSceEbootpbp_signs signingConsole (fun _ _ => 0) (Vector.replicate 64 0)
      (bytes "ux0:pspemu") (bytes "SLES00000") (wholeFile titleImage) (fun _ => rfl) (fun _ => rfl) (by decide)
      (by show dataPsarPtr titleImage + 0x1C0000 < 4294967296; rw [hpsar]; decide)
      (Or.inr (by show titleImage.length < 4294967296; rw [hlen]; decide))
    have hdata : signedData signingConsole.discinfo (bytes "SLES00000") titleImage
        = some (.pstitleimg, discRecord) := by
      rw [signedData, hcode, if_neg (by decide), if_neg (by decide), if_pos rfl, hrecord]
    refine ⟨t, ht.trans ?_⟩
    show EStateM.Result.ok (signingConsole.signs _ (signedData _ _ titleImage)) t = _
    rw [hdata]
    rfl

end VitaConnect.Pbp
