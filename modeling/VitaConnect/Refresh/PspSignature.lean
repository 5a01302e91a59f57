import VitaConnect.Pbp.Signature
import VitaConnect.Refresh.Psp

/-! # `gen_sce_ebootpbp` in a run of `psp_callback`

`Pbp.genSceEbootpbp` says what is signed and what is written. `Psp.genSceEbootpbp` has the function that
signs as an answer of the run and writes to its file system, and it does what the first one says.
-/
namespace VitaConnect.Refresh.Psp
open CString Program Storage
set_option autoImplicit false

/-- The call of the function that signs is answered as in the run. -/
def GenAnswers.Signs (gen : GenAnswers) (console : Pbp.Console) (call : Pbp.PbpType × CStr × List Byte) :
    Prop :=
  console.sigGen call.1 call.2.1 call.2.2 = (gen.vshNpDrmEbootSigGen, gen.sceEbootpbp.take 0x200)

/-- What is written goes into the folder of the game. -/
def performed (a : PspAnswers) (pspGameFolder : Path) (signing : Pbp.Signing) : PspM ℤ :=
  signing.written.elim (pure signing.ret) fun written =>
    ofRefresh (writeFile a.gen.write (pspGameFolder ++ [sceEbootpbp]) written.2)

/-! ## The two functions -/

section Performs
variable {console : Pbp.Console} {a : PspAnswers} {pspGameFolder : Path}

theorem opened_of_ok {α : Type} {x : Pbp.PbpM α} {file t : Pbp.Reading} {r : α} (h : x file = .ok r t) :
    opened x file = some (r, t) := by
  rw [opened, h]

/-- `hash_pbp` ends where it ends with its digest. -/
theorem hashPbp_of_into {mem : Pbp.Stack} {stack : Vector Byte 64} {outHash : List Byte} {s t : Pbp.Reading}
    {r : ℤ × List Byte} (h : Pbp.hashPbpInto mem stack outHash s = .ok r t) :
    ∃ ret u, Pbp.hashPbp mem s = .ok ret u := by
  obtain ⟨before, u, hget, h⟩ := bind_ok h
  obtain ⟨rfl, rfl⟩ := EStateM.Result.ok.inj hget
  obtain ⟨ret, u, hhash, -⟩ := bind_ok h
  exact ⟨ret, u, hhash⟩

theorem signedType_hashed {u v : Pbp.Reading} {pbpType ret : ℤ} {header : List Byte}
    (htype : Pbp.determinePbpType a.stack a.gen.eboot = .ok (pbpType, header) u)
    (hhash : Pbp.hashPbp a.stack u = .ok ret v) : signedType a = some pbpType := by
  rw [signedType, opened_of_ok htype]
  show (if _ then _ else _) = _
  rw [opened_of_ok hhash]
  exact ite_self _

theorem signedType_unhashed {u : Pbp.Reading} {pbpType : ℤ} {header : List Byte}
    (htype : Pbp.determinePbpType a.stack a.gen.eboot = .ok (pbpType, header) u)
    (hpsiso : pbpType ≠ Pbp.PbpType.psisoimg.code) (hnpumd : pbpType ≠ Pbp.PbpType.npumdimg.code) :
    signedType a = some pbpType := by
  rw [signedType, opened_of_ok htype]
  exact if_neg (not_or.mpr ⟨hpsiso, hnpumd⟩)

/-- A signature is written when the function that signs does not answer an error. -/
theorem performed_sign (pbpType : Pbp.PbpType) (ebootpbpPath sceEbootpbpPath : CStr) (data : List Byte)
    (h : ∀ call ∈ (console.sign pbpType ebootpbpPath sceEbootpbpPath data).generated,
      a.gen.Signs console call) :
    performed a pspGameFolder (console.sign pbpType ebootpbpPath sceEbootpbpPath data)
      = if a.gen.vshNpDrmEbootSigGen < 0 then pure a.gen.vshNpDrmEbootSigGen
        else ofRefresh (writeFile a.gen.write (pspGameFolder ++ [sceEbootpbp])
          (a.gen.sceEbootpbp.take 0x200)) := by
  have hcall : (console.sign pbpType ebootpbpPath sceEbootpbpPath data).generated
      = some (pbpType, ebootpbpPath, data) := by
    unfold Pbp.Console.sign
    dsimp only
    split <;> rfl
  have hgen : console.sigGen pbpType ebootpbpPath data = _ := h _ hcall
  rw [Pbp.Console.sign, hgen]
  dsimp only
  by_cases hneg : a.gen.vshNpDrmEbootSigGen < 0
  · rw [if_neg (not_le.mpr hneg), if_pos hneg]
    rfl
  · rw [if_pos (not_lt.mp hneg), if_neg hneg]
    rfl

theorem genSceEbootpbp_of_type {pbpType : ℤ} (hopen : ¬ a.gen.eboot.sceIoOpen < 0)
    (htype : signedType a = some pbpType) (hknown : pbpType ≠ Pbp.PbpType.unknown.code) :
    genSceEbootpbp a pspGameFolder
      = if a.gen.vshNpDrmEbootSigGen < 0 then pure a.gen.vshNpDrmEbootSigGen
        else ofRefresh (writeFile a.gen.write (pspGameFolder ++ [sceEbootpbp])
          (a.gen.sceEbootpbp.take 0x200)) := by
  rw [genSceEbootpbp, if_neg hopen, htype]
  dsimp only
  rw [if_neg hknown]

/-- **One `gen_sce_ebootpbp`.** Where it comes to its end, the function of the run answers and writes what the
function of `pbp.c` says, when the function that signs answers as in the run. -/
theorem genSceEbootpbp_performs {stack : Vector Byte 64} {folder discId : CStr} {signing : Pbp.Signing}
    {t : Pbp.Reading} (hstart : a.gen.eboot.pos = 0)
    (h : Pbp.genSceEbootpbp console a.stack stack (some folder) discId a.gen.eboot = .ok signing t)
    (hsigns : ∀ call ∈ signing.generated, a.gen.Signs console call) :
    genSceEbootpbp a pspGameFolder = performed a pspGameFolder signing := by
  have hopened : { a.gen.eboot with pos := 0 } = a.gen.eboot := by rw [← hstart]
  rw [Pbp.genSceEbootpbp] at h
  dsimp only at h
  rw [Pbp.openPbp_bind, hopened, ite_run] at h
  split_ifs at h with hopen
  · obtain ⟨rfl, -⟩ := EStateM.Result.ok.inj h
    rw [genSceEbootpbp, if_pos hopen]
    rfl
  obtain ⟨⟨pbpType, header⟩, u, htype, h⟩ := bind_ok h
  dsimp only at h
  rw [ite_run, ite_run, ite_run] at h
  split_ifs at h with hpsiso hnpumd hpstitle
  · obtain ⟨⟨ret, pbpHash⟩, v, hinto, h⟩ := bind_ok h
    obtain ⟨rfl, -⟩ := EStateM.Result.ok.inj h
    obtain ⟨ret, w, hhash⟩ := hashPbp_of_into hinto
    rw [performed_sign _ _ _ _ hsigns]
    exact genSceEbootpbp_of_type hopen (signedType_hashed htype hhash) (by rw [hpsiso]; decide)
  · obtain ⟨⟨ret, pbpHash⟩, v, hinto, h⟩ := bind_ok h
    obtain ⟨rfl, -⟩ := EStateM.Result.ok.inj h
    obtain ⟨ret, w, hhash⟩ := hashPbp_of_into hinto
    rw [performed_sign _ _ _ _ hsigns]
    exact genSceEbootpbp_of_type hopen (signedType_hashed htype hhash) (by rw [hnpumd]; decide)
  · obtain ⟨sceDiscinfo, v, -, h⟩ := bind_ok h
    obtain ⟨rfl, -⟩ := EStateM.Result.ok.inj h
    rw [performed_sign _ _ _ _ hsigns]
    exact genSceEbootpbp_of_type hopen (signedType_unhashed htype hpsiso hnpumd) (by rw [hpstitle]; decide)
  · -- the only type left is the unknown one, which neither of the two signs
    obtain ⟨rfl, -⟩ := EStateM.Result.ok.inj h
    obtain ⟨known, hcode⟩ := Pbp.determinePbpType_code htype
    have hunknown : pbpType = Pbp.PbpType.unknown.code := by
      cases known with
      | npumdimg => exact absurd hcode hnpumd
      | psisoimg => exact absurd hcode hpsiso
      | pstitleimg => exact absurd hcode hpstitle
      | unknown => exact hcode
    rw [genSceEbootpbp, if_neg hopen, signedType_unhashed htype hpsiso hnpumd]
    dsimp only
    rw [if_pos hunknown]
    rfl

end Performs

end VitaConnect.Refresh.Psp
