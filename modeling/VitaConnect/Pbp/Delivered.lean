import VitaConnect.Pbp.ContentId

/-! # Reads that fail (`pbp.c`)

The answer of `sceIoRead` is an `int` and the sizes it is compared with are unsigned, so an error passes
for a complete read and the memory of the local variables is used in place of the file. `Honours` says
that a function has one outcome whatever that memory holds, and refuses a file of which a structure has
not been delivered.
-/
namespace VitaConnect.Pbp
open CString Program
set_option autoImplicit false

/-! ## Answers -/

/-- The `i`-th read from here on answers an error. -/
def Reading.Fails (s : Reading) (i : ℕ) : Prop := ∃ code, s.sceIoRead i = .error code

/-- What the `i`-th read from here on delivers when the file stands at `pos`. -/
def Reading.deliveredAt (s : Reading) (i pos size : ℕ) : List Byte :=
  (s.sceIoRead i).delivered (s.content.drop pos) size

section Answers
variable {s : Reading} {size : ℕ}

theorem delivered_length_le (s : Reading) (size : ℕ) : (s.delivered size).length ≤ size := by
  unfold Reading.delivered
  cases s.sceIoRead 0 with
  | full => exact List.length_take_le _ _
  | short n => exact (List.length_take_le _ _).trans (min_le_right n size)
  | error code => exact Nat.zero_le size

theorem ret_of_not_fails (h : ¬ s.Fails 0) : s.ret size = (s.delivered size).length := by
  unfold Reading.ret Reading.delivered
  cases hread : s.sceIoRead 0 with
  | full => rfl
  | short n => rfl
  | error code => exact absurd ⟨code, hread⟩ h

theorem ret_of_fails (size : ℕ) (h : s.Fails 0) : -2147483648 ≤ s.ret size ∧ s.ret size < 0 := by
  obtain ⟨code, hread⟩ := h
  rw [Reading.ret, hread]
  exact code.2

theorem ret_bounds (s : Reading) (size : ℕ) : -2147483648 ≤ s.ret size ∧ s.ret size ≤ size := by
  have hle := delivered_length_le s size
  by_cases hfails : s.Fails 0
  · have hret := ret_of_fails size hfails
    omega
  · rw [ret_of_not_fails hfails]
    omega

theorem delivered_of_fails (h : s.Fails 0) : s.delivered size = [] := by
  obtain ⟨code, hread⟩ := h
  rw [Reading.delivered, hread]
  rfl

/-- The comparison of the source takes an error for a complete read. -/
theorem short_iff (hsize : size < 2147483648) :
    u32 (s.ret size) < size ↔ ¬ s.Fails 0 ∧ (s.delivered size).length < size := by
  have hle := delivered_length_le s size
  by_cases hfails : s.Fails 0
  · obtain ⟨hlow, hneg⟩ := ret_of_fails size hfails
    have hbig : ¬ u32 (s.ret size) < size := by
      unfold u32
      omega
    simp only [hbig, hfails, not_true, false_and]
  · rw [ret_of_not_fails hfails, u32_of_lt (by omega)]
    simp only [hfails, not_false_iff, true_and]

theorem long_of_fails (hsize : size < 2147483648) (h : s.Fails 0) : ¬ u32 (s.ret size) < size := by
  rw [short_iff hsize]
  exact fun hshort => hshort.1 h

theorem not_fails_of_complete (hpos : 0 < size) (h : (s.delivered size).length = size) :
    ¬ s.Fails 0 := by
  intro hfails
  rw [delivered_of_fails hfails] at h
  exact absurd h hpos.ne

end Answers

theorem ret_of_complete {s : Reading} {size : ℕ} (hpos : 0 < size)
    (h : (s.delivered size).length = size) : s.ret size = size := by
  rw [ret_of_not_fails (not_fails_of_complete hpos h), h]

theorem ret_lt_of_short {s : Reading} {size : ℕ} (h : (s.delivered size).length < size) :
    s.ret size < size := by
  by_cases hfails : s.Fails 0
  · exact lt_of_lt_of_le (ret_of_fails size hfails).2 (by omega)
  · rw [ret_of_not_fails hfails]
    omega

theorem bind_read {α : Type} (mem : Stack) (x : Local) (f : ℤ × List Byte → PbpM α) (s : Reading) :
    (readInto (mem.array x) >>= f) s
      = f (s.ret x.size, overwrite (mem.array x) (s.delivered x.size)) (s.behindRead x.size) := by
  rw [bind_apply, readInto_apply, mem.array_length]

theorem overwrite_length {old new : List Byte} (h : new.length ≤ old.length) :
    (overwrite old new).length = old.length := by
  rw [overwrite, List.length_append, List.length_drop]
  omega

theorem overwrite_delivered_length {arr : List Byte} {n : ℕ} (h : arr.length = n) (s : Reading) :
    (overwrite arr (s.delivered n)).length = n := by
  rw [overwrite_length (by rw [h]; exact delivered_length_le s n), h]

theorem overwrite_nil (old : List Byte) : overwrite old [] = old := rfl

/-- A memory whose local variable `x` holds the bytes `bs`. -/
def Stack.holding (x : Local) (bs : List Byte) : Stack :=
  fun y i => if y = x then bs.getD i 0 else 0

theorem array_holding {x : Local} {bs : List Byte} (h : bs.length = x.size) :
    (Stack.holding x bs).array x = bs := by
  refine List.ext_getElem (by rw [Stack.array_length, h]) fun i hi hi' => ?_
  simp [Stack.array, Stack.holding, List.getD_eq_getElem?_getD, hi']

/-! ## What every function should do -/

inductive Reader
  | getPbpType | getPbpContentId | getPbpSfo | hashPbp

def Reader.run : Reader → Stack → CStr → PbpM ℤ
  | getPbpType, mem, path => Pbp.getPbpType mem (some path)
  | getPbpContentId, mem, path => Pbp.getPbpContentId mem (some path)
  | getPbpSfo, mem, path => do
    let (res, _) ← Pbp.getPbpSfo mem (some path)
    pure res
  | hashPbp, mem, _ => Pbp.hashPbp mem

/-- A read that delivers less than its structure makes the function answer `refusal`. -/
def RefusesShort (refusal value : ℤ) (calls : List Call) : Prop :=
  ∀ size delivered ret, Call.read size delivered ret ∈ calls → ret < size → value = refusal

section Refuses
variable {refusal value : ℤ} {calls : List Call}

@[simp] theorem refusesShort_nil : RefusesShort refusal value [] := by
  intro size delivered ret h
  cases h

@[simp] theorem refusesShort_read {size : ℕ} {delivered : List Byte} {ret : ℤ} :
    RefusesShort refusal value (.read size delivered ret :: calls) ↔
      (ret < size → value = refusal) ∧ RefusesShort refusal value calls := by
  constructor
  · intro h
    exact ⟨h size delivered ret List.mem_cons_self,
      fun size' delivered' ret' h' => h size' delivered' ret' (List.mem_cons_of_mem _ h')⟩
  · rintro ⟨hhead, hrest⟩ size' delivered' ret' h'
    rcases List.mem_cons.mp h' with heq | h'
    · obtain ⟨rfl, -, rfl⟩ := Call.read.inj heq
      exact hhead
    · exact hrest size' delivered' ret' h'

theorem refusesShort_skip {c : Call} (hc : ∀ size delivered ret, c ≠ .read size delivered ret) :
    RefusesShort refusal value (c :: calls) ↔ RefusesShort refusal value calls := by
  refine ⟨fun h size delivered ret h' => h size delivered ret (List.mem_cons_of_mem c h'),
    fun h size delivered ret h' => ?_⟩
  rcases List.mem_cons.mp h' with rfl | h'
  · exact absurd rfl (hc size delivered ret)
  · exact h size delivered ret h'

@[simp] theorem refusesShort_lseek {offset : ℤ} :
    RefusesShort refusal value (.lseek offset :: calls) ↔ RefusesShort refusal value calls :=
  refusesShort_skip (by simp)

@[simp] theorem refusesShort_malloc {size : ℕ} :
    RefusesShort refusal value (.malloc size :: calls) ↔ RefusesShort refusal value calls :=
  refusesShort_skip (by simp)

end Refuses

/-- Reads and updates take turns, each update hashes only what the read before it has delivered, and
nothing follows a read that delivers less than `need`, or later less than the array. -/
def HashesDelivered (need : ℤ) : List Call → Prop
  | [] => True
  | [.read _ _ ret] => ret < need
  | .read _ delivered ret :: .sha256Update data :: calls =>
    data <+: delivered ∧ (ret < need → calls = []) ∧ HashesDelivered 0x7c0 calls
  | _ => False

def Reader.Stops : Reader → ℤ → List Call → Prop
  | getPbpType, value, calls => RefusesShort PbpType.unknown.code value calls
  | getPbpContentId, value, calls => RefusesShort 0 value calls
  | getPbpSfo, value, calls => RefusesShort 0 value calls
  | hashPbp, _, calls => ∃ rest, calls = .lseek 0 :: rest ∧ HashesDelivered Local.pbpHeader.size rest

/-- One outcome for every memory of the local variables, in which the answer and the calls meet `Q`. -/
def Uniform (Q : ℤ → List Call → Prop) (m : Stack → PbpM ℤ) (s : Reading) : Prop :=
  ∃ value t calls, (∀ mem, m mem s = .ok value t) ∧ t.calls = s.calls ++ calls ∧ Q value calls

theorem Uniform.answer {Q : ℤ → List Call → Prop} {m : Stack → PbpM ℤ} {s t : Reading} {mem : Stack}
    {value : ℤ} {calls : List Call} (h : Uniform Q m s) (hrun : m mem s = .ok value t)
    (hcalls : t.calls = s.calls ++ calls) : Q value calls := by
  obtain ⟨value', t', calls', hrun', hcalls', hQ⟩ := h
  obtain ⟨rfl, rfl⟩ := EStateM.Result.ok.inj ((hrun' mem).symm.trans hrun)
  rw [hcalls, List.append_cancel_left_eq] at hcalls'
  rwa [hcalls']

/-- With one memory the run is over where with another it makes a further call. -/
theorem Uniform.not_longer {Q : ℤ → List Call → Prop} {m : Stack → PbpM ℤ} {s u : Reading}
    {mem : Stack} {value : ℤ} (h : Uniform Q m s) (hstops : m mem s = .ok value u) (mem' : Stack)
    (c : Call) (hgoes : ∀ value' t, m mem' s = .ok value' t → u.calls ++ [c] <+: t.calls) : False := by
  obtain ⟨value', t, calls, hrun, -, -⟩ := h
  obtain ⟨-, rfl⟩ := EStateM.Result.ok.inj ((hrun mem).symm.trans hstops)
  have hle := (hgoes value' t (hrun mem')).length_le
  rw [List.length_append, List.length_singleton] at hle
  omega

def Honours (reader : Reader) (path : CStr) (s : Reading) : Prop :=
  Uniform reader.Stops (fun mem => reader.run mem path) s

/-! ## The states that a function passes through -/

def Reading.atPsar (s : Reading) : Reading :=
  (s.behindRead 40).behindSeek (dataPsarPtr (s.delivered 40))

def Reading.pastMagic (s : Reading) : Reading := s.atPsar.behindRead 8

def Reading.atSignature (s : Reading) (pbpType : PbpType) : Reading :=
  s.pastMagic.behindSeek (i32 (i32 (dataPsarPtr (s.delivered 40)) + signatureOffset pbpType))

section Header
variable {s : Reading}

theorem header_complete (hheader : (s.delivered 40).length = 40) (mem : Stack) :
    overwrite (mem.array .pbpHeader) (s.delivered 40) = s.delivered 40 :=
  overwrite_of_complete (by rw [hheader, Stack.array_length, Local.size])

theorem not_short_of_complete {size : ℕ} (hsize : size < 2147483648)
    (h : (s.delivered size).length = size) : ¬ u32 (s.ret size) < size := by
  rw [short_iff hsize]
  omega

theorem determinePbpType_header (hheader : (s.delivered 40).length = 40) (mem : Stack) :
    determinePbpType mem s =
      if u32 (s.atPsar.ret 8) < Local.dataPsarMagic.size then .ok (0, s.delivered 40) s.pastMagic
      else
        let magic := overwrite (mem.array .dataPsarMagic) (s.atPsar.delivered 8)
        if magic = bytes "NPUMDIMG" then .ok (PbpType.npumdimg.code, s.delivered 40) s.pastMagic
        else if magic = bytes "PSISOIMG" then
          (isPsxSigned mem (i32 (dataPsarPtr (s.delivered 40))) .psisoimg >>= fun pbpType =>
            pure (pbpType, s.delivered 40)) s.pastMagic
        else if magic = bytes "PSTITLEI" then
          (isPsxSigned mem (i32 (dataPsarPtr (s.delivered 40))) .pstitleimg >>= fun pbpType =>
            pure (pbpType, s.delivered 40)) s.pastMagic
        else .ok (PbpType.unknown.code, s.delivered 40) s.pastMagic := by
  have hlong : ¬ u32 (s.ret Local.pbpHeader.size) < Local.pbpHeader.size :=
    not_short_of_complete (by decide) hheader
  have harray : overwrite (mem.array .pbpHeader) (s.delivered Local.pbpHeader.size) = s.delivered 40 :=
    header_complete hheader mem
  rw [determinePbpType, bind_read]
  dsimp only
  rw [if_neg hlong, harray, sceIoLseek_bind, bind_read]
  dsimp only
  simp only [ite_run, pure_apply]
  rfl

theorem determinePbpType_zero (hheader : (s.delivered 40).length = 40) {mem : Stack}
    (h : u32 (s.atPsar.ret 8) < Local.dataPsarMagic.size ∨
      overwrite (mem.array .dataPsarMagic) (s.atPsar.delivered 8) = bytes "NPUMDIMG") :
    determinePbpType mem s = .ok (0, s.delivered 40) s.pastMagic := by
  rw [determinePbpType_header hheader]
  rcases h with hshort | hmagic
  · rw [if_pos hshort]
  · dsimp only
    rw [hmagic, if_pos rfl, PbpType.code, ite_self]

theorem magic_complete {magic : List Byte} (hmagic : s.atPsar.delivered 8 = magic)
    (hlen : magic.length = 8) (mem : Stack) :
    ¬ u32 (s.atPsar.ret 8) < Local.dataPsarMagic.size ∧
      overwrite (mem.array .dataPsarMagic) (s.atPsar.delivered 8) = magic := by
  subst hmagic
  refine ⟨not_short_of_complete (by decide) hlen, overwrite_of_complete ?_⟩
  rw [hlen, Stack.array_length, Local.size]

/-- What `is_psx_signed` answers behind the magic of `pbpType`. -/
def signedAnswer (mem : Stack) (s : Reading) (pbpType : PbpType) : ℤ :=
  if u32 ((s.atSignature pbpType).ret Local.pgdMagic.size) < Local.pgdMagic.size then
    PbpType.unknown.code
  else if overwrite (mem.array .pgdMagic) ((s.atSignature pbpType).delivered Local.pgdMagic.size) = pgd
  then pbpType.code
  else PbpType.unknown.code

theorem isPsxSigned_apply (mem : Stack) (s : Reading) (pbpType : PbpType) :
    isPsxSigned mem (i32 (dataPsarPtr (s.delivered 40))) pbpType s.pastMagic
      = .ok (signedAnswer mem s pbpType) ((s.atSignature pbpType).behindRead 4) := by
  rw [isPsxSigned, sceIoLseek_bind, ← Reading.atSignature, bind_read]
  dsimp only
  simp only [ite_run, pure_apply, signedAnswer]
  split_ifs <;> rfl

theorem determinePbpType_psx (hheader : (s.delivered 40).length = 40) (mem : Stack)
    {pbpType : PbpType} (hkind : pbpType ∈ [PbpType.psisoimg, .pstitleimg])
    (hmagic : s.atPsar.delivered 8 = psxMagic pbpType) :
    determinePbpType mem s
      = .ok (signedAnswer mem s pbpType, s.delivered 40) ((s.atSignature pbpType).behindRead 4) := by
  have hlen : (psxMagic pbpType).length = 8 := by cases pbpType <;> decide
  obtain ⟨hlong, harray⟩ := magic_complete hmagic hlen mem
  rw [determinePbpType_header hheader, if_neg hlong]
  dsimp only
  rw [harray]
  simp only [List.mem_cons, List.not_mem_nil, or_false] at hkind
  rcases hkind with rfl | rfl
  · rw [if_neg (by decide), if_pos (by decide), bind_apply, isPsxSigned_apply]
    rfl
  · rw [if_neg (by decide), if_neg (by decide), if_pos (by decide), bind_apply, isPsxSigned_apply]
    rfl

theorem determinePbpType_other (hheader : (s.delivered 40).length = 40) (mem : Stack)
    (hlong : ¬ u32 (s.atPsar.ret 8) < Local.dataPsarMagic.size) {magic : List Byte}
    (hmagic : overwrite (mem.array .dataPsarMagic) (s.atPsar.delivered 8) = magic)
    (hother : magic ∉ [bytes "NPUMDIMG", bytes "PSISOIMG", bytes "PSTITLEI"]) :
    determinePbpType mem s = .ok (PbpType.unknown.code, s.delivered 40) s.pastMagic := by
  simp only [List.mem_cons, List.not_mem_nil, or_false, not_or] at hother
  rw [determinePbpType_header hheader, if_neg hlong]
  dsimp only
  rw [hmagic, if_neg hother.1, if_neg hother.2.1, if_neg hother.2.2]

theorem not_mem_magics {magic : List Byte} (hnpumdimg : magic ≠ bytes "NPUMDIMG")
    (hpsx : ¬ ∃ pbpType ∈ [PbpType.psisoimg, .pstitleimg], magic = psxMagic pbpType) :
    magic ∉ [bytes "NPUMDIMG", bytes "PSISOIMG", bytes "PSTITLEI"] := by
  simpa [psxMagic, hnpumdimg] using hpsx

theorem determinePbpType_short (hfails : ¬ s.Fails 0) (hshort : (s.delivered 40).length < 40)
    (mem : Stack) : determinePbpType mem s
      = .ok (0, overwrite (mem.array .pbpHeader) (s.delivered 40)) (s.behindRead 40) := by
  have hlt : u32 (s.ret Local.pbpHeader.size) < Local.pbpHeader.size :=
    (short_iff (by decide)).mpr ⟨hfails, hshort⟩
  rw [determinePbpType, bind_read]
  dsimp only
  rw [if_pos hlt]
  rfl

theorem signedAnswer_delivers {pbpType : PbpType} (h : ¬ (s.atSignature pbpType).Fails 0) (mem : Stack) :
    signedAnswer mem s pbpType
      = if (s.atSignature pbpType).delivered 4 = pgd then pbpType.code else PbpType.unknown.code := by
  unfold signedAnswer
  have hle := delivered_length_le (s.atSignature pbpType) 4
  by_cases hlen : ((s.atSignature pbpType).delivered 4).length = 4
  · have hlong : ¬ u32 ((s.atSignature pbpType).ret Local.pgdMagic.size) < Local.pgdMagic.size :=
      not_short_of_complete (by decide) hlen
    have harray : overwrite (mem.array .pgdMagic) ((s.atSignature pbpType).delivered Local.pgdMagic.size)
        = (s.atSignature pbpType).delivered 4 :=
      overwrite_of_complete (by rw [Stack.array_length]; exact hlen)
    rw [if_neg hlong, harray]
  · have hshort : u32 ((s.atSignature pbpType).ret Local.pgdMagic.size) < Local.pgdMagic.size :=
      (short_iff (by decide)).mpr ⟨h, lt_of_le_of_ne hle hlen⟩
    rw [if_pos hshort, if_neg]
    intro hpgd
    rw [hpgd] at hlen
    exact hlen rfl

theorem signedAnswer_fails {pbpType : PbpType} (h : (s.atSignature pbpType).Fails 0) (mem : Stack) :
    signedAnswer mem s pbpType
      = if mem.array .pgdMagic = pgd then pbpType.code else PbpType.unknown.code := by
  have hlong : ¬ u32 ((s.atSignature pbpType).ret Local.pgdMagic.size) < Local.pgdMagic.size :=
    long_of_fails (by decide) h
  rw [signedAnswer, if_neg hlong, delivered_of_fails h, overwrite_nil]

end Header

/-! ## Calls only grow -/

abbrev CallsGrow (s t : Reading) : Prop := s.calls <+: t.calls

instance refl_callsGrow : Std.Refl CallsGrow := ⟨fun _ => List.prefix_refl _⟩

instance isTrans_callsGrow : IsTrans Reading CallsGrow := ⟨fun _ _ _ h h' => h.trans h'⟩

theorem grows_call (c : Call) : Respects CallsGrow (call c) := fun _ => List.prefix_append _ _

theorem grows_readInto (arr : List Byte) : Respects CallsGrow (readInto arr) :=
  fun _ => List.prefix_append _ _

theorem grows_keeps {α : Type} {x : PbpM α} (h : Keeps Reading.calls x) : Respects CallsGrow x :=
  fun s => ⟨[], (List.append_nil _).trans (h s).symm⟩

theorem grows_sceIoLseek (offset : ℤ) : Respects CallsGrow (sceIoLseek offset) :=
  respects_bind (grows_keeps fun _ => rfl) fun _ => grows_call _

theorem grows_readContentId (mem : Stack) (header : Local) (off : ℕ) :
    Respects CallsGrow (readContentId mem header off) := by
  refine respects_bind (grows_readInto _) fun r => respects_ite (respects_pure _) ?_
  refine respects_bind (grows_keeps fun _ => rfl) fun _ => ?_
  exact respects_bind (grows_keeps fun _ => rfl) fun _ => respects_pure _

theorem grows_isPsxSigned (mem : Stack) (off : ℤ) (pbpType : PbpType) :
    Respects CallsGrow (isPsxSigned mem off pbpType) := by
  refine respects_bind (grows_sceIoLseek _) fun _ => respects_bind (grows_readInto _) fun r => ?_
  exact respects_ite (respects_pure _) (respects_ite (respects_pure _) (respects_pure _))

theorem psar_differs {d : List Byte} (h : d.length < 40) :
    ∃ mem mem' : Stack, dataPsarPtr (overwrite (mem.array .pbpHeader) d)
      ≠ dataPsarPtr (overwrite (mem'.array .pbpHeader) d) := by
  refine ⟨.holding .pbpHeader (List.replicate 40 0), .holding .pbpHeader (List.replicate 39 0 ++ [1]),
    fun heq => ?_⟩
  rw [array_holding rfl, array_holding rfl] at heq
  have hfields := leWord_inj (by simp [overwrite]) heq
  have hlast := congrArg (·[3]?) hfields
  simp [overwrite, List.getElem?_append, List.getElem?_drop, not_lt.mpr (Nat.le_of_lt_succ h),
    show d.length + (39 - d.length) = 39 by omega] at hlast

/-- A function that seeks to a pointer of an incomplete header has different outcomes. -/
theorem not_uniform_of_seek {Q : ℤ → List Call → Prop} {m : Stack → PbpM ℤ} {s : Reading}
    {d : List Byte} (c : Call) (hd : d.length < 40)
    (hseek : ∀ mem value t, m mem s = .ok value t →
      s.calls ++ [c, .lseek (dataPsarPtr (overwrite (mem.array .pbpHeader) d))] <+: t.calls) :
    ¬ Uniform Q m s := by
  rintro ⟨value, t, calls, hrun, -, -⟩
  obtain ⟨mem, mem', hne⟩ := psar_differs hd
  have hprefix := List.prefix_of_prefix_length_le (hseek mem value t (hrun mem))
    (hseek mem' value t (hrun mem')) (by simp)
  have heq := hprefix.eq_of_length (by simp)
  simp only [List.append_cancel_left_eq, List.cons.injEq, Call.lseek.injEq, Nat.cast_inj, and_true,
    true_and] at heq
  exact hne heq

/-! ## The type -/

theorem behindRead_fails (s : Reading) (size i : ℕ) : (s.behindRead size).Fails i ↔ s.Fails (i + 1) :=
  Iff.rfl

theorem behindSeek_fails (s : Reading) (offset : ℤ) (i : ℕ) : (s.behindSeek offset).Fails i ↔ s.Fails i :=
  Iff.rfl

theorem pastMagic_fails (s : Reading) (i : ℕ) : s.pastMagic.Fails i ↔ s.Fails (i + 2) := by
  rw [Reading.pastMagic, behindRead_fails, Reading.atPsar, behindSeek_fails, behindRead_fails]

theorem atSignature_fails (s : Reading) (pbpType : PbpType) (i : ℕ) :
    (s.atSignature pbpType).Fails i ↔ s.Fails (i + 2) := by
  rw [Reading.atSignature, behindSeek_fails, pastMagic_fails]

theorem behindRead_calls (s : Reading) (size : ℕ) :
    (s.behindRead size).calls = s.calls ++ [.read size (s.delivered size) (s.ret size)] := rfl

theorem behindSeek_calls (s : Reading) (offset : ℤ) :
    (s.behindSeek offset).calls = s.calls ++ [.lseek offset] := rfl

theorem atPsar_calls (s : Reading) :
    s.atPsar.calls = s.calls ++ [.read 40 (s.delivered 40) (s.ret 40),
      .lseek (dataPsarPtr (s.delivered 40))] := by
  rw [Reading.atPsar, behindSeek_calls, behindRead_calls, List.append_assoc, List.singleton_append]

theorem pastMagic_calls (s : Reading) :
    s.pastMagic.calls = s.calls ++ [.read 40 (s.delivered 40) (s.ret 40),
      .lseek (dataPsarPtr (s.delivered 40)), .read 8 (s.atPsar.delivered 8) (s.atPsar.ret 8)] := by
  rw [Reading.pastMagic, behindRead_calls, atPsar_calls, List.append_assoc]
  rfl

theorem behindSignature_calls (s : Reading) (pbpType : PbpType) :
    ((s.atSignature pbpType).behindRead 4).calls = s.pastMagic.calls ++
      [.lseek (i32 (i32 (dataPsarPtr (s.delivered 40)) + signatureOffset pbpType)),
        .read 4 ((s.atSignature pbpType).delivered 4) ((s.atSignature pbpType).ret 4)] := by
  have hsought : (s.atSignature pbpType).calls = s.pastMagic.calls ++
      [.lseek (i32 (i32 (dataPsarPtr (s.delivered 40)) + signatureOffset pbpType))] := by
    rw [Reading.atSignature, behindSeek_calls]
  rw [behindRead_calls, hsought, List.append_assoc, List.singleton_append]

/-- Header and magic are delivered in full, and the read of a signature does not fail. -/
structure TypeDelivered (s : Reading) : Prop where
  header : (s.delivered 40).length = 40
  magic : (s.atPsar.delivered 8).length = 8
  signature : ∀ pbpType ∈ [PbpType.psisoimg, .pstitleimg], s.atPsar.delivered 8 = psxMagic pbpType →
    ¬ s.Fails 2

/-- The run of `get_pbp_type` behind `sceIoOpen`. -/
def typeOf (mem : Stack) : PbpM ℤ := do
  let (res, _) ← determinePbpType mem
  pure res

theorem typeOf_of_determine {mem : Stack} {s t : Reading} {code : ℤ} {header : List Byte}
    (h : determinePbpType mem s = .ok (code, header) t) : typeOf mem s = .ok code t := by
  rw [typeOf, bind_apply, h]
  rfl

theorem pgd_complete {s : Reading} (h : ¬ s.Fails 0) (hpgd : s.delivered 4 = pgd) : ¬ s.ret 4 < 4 := by
  rw [ret_of_not_fails h, hpgd]
  decide

theorem uniform_typeOf_of_delivered {s : Reading} (h : TypeDelivered s) :
    Uniform (RefusesShort PbpType.unknown.code) typeOf s := by
  have hheader := ret_of_complete (by norm_num) h.header
  have hmagic := ret_of_complete (by norm_num) h.magic
  by_cases hpsx : ∃ pbpType ∈ [PbpType.psisoimg, .pstitleimg], s.atPsar.delivered 8 = psxMagic pbpType
  · obtain ⟨pbpType, hkind, heq⟩ := hpsx
    have hdelivers : ¬ (s.atSignature pbpType).Fails 0 := by
      rw [atSignature_fails]
      exact h.signature pbpType hkind heq
    refine ⟨if (s.atSignature pbpType).delivered 4 = pgd then pbpType.code else PbpType.unknown.code,
      (s.atSignature pbpType).behindRead 4, _, fun mem => ?_,
      by rw [behindSignature_calls, pastMagic_calls, List.append_assoc], ?_⟩
    · rw [typeOf_of_determine (determinePbpType_psx h.header mem hkind heq),
        signedAnswer_delivers hdelivers]
    · simp only [hheader, hmagic, List.cons_append, List.nil_append, refusesShort_read,
        refusesShort_lseek, refusesShort_nil]
      refine ⟨by simp, by simp, fun hshort => ?_, trivial⟩
      rw [if_neg fun hpgd => pgd_complete hdelivers hpgd hshort]
  · have hplain : ∃ code, ∀ mem, determinePbpType mem s = .ok (code, s.delivered 40) s.pastMagic := by
      by_cases hnpumdimg : s.atPsar.delivered 8 = bytes "NPUMDIMG"
      · refine ⟨0, fun mem => determinePbpType_zero h.header (Or.inr ?_)⟩
        exact (magic_complete hnpumdimg (by decide) mem).2
      · refine ⟨PbpType.unknown.code, fun mem => ?_⟩
        obtain ⟨hlong, harray⟩ := magic_complete rfl h.magic mem
        exact determinePbpType_other h.header mem hlong harray (not_mem_magics hnpumdimg hpsx)
    obtain ⟨code, hcode⟩ := hplain
    refine ⟨code, s.pastMagic, _, fun mem => typeOf_of_determine (hcode mem), pastMagic_calls s, ?_⟩
    simp [hheader, hmagic]

theorem determinePbpType_seeks {mem : Stack} {s t : Reading} {res : ℤ × List Byte} (hfails : s.Fails 0)
    (hrun : determinePbpType mem s = .ok res t) :
    s.calls ++ [.read 40 (s.delivered 40) (s.ret 40),
      .lseek (dataPsarPtr (overwrite (mem.array .pbpHeader) (s.delivered 40)))] <+: t.calls := by
  have hlong : ¬ u32 (s.ret Local.pbpHeader.size) < Local.pbpHeader.size :=
    long_of_fails (by decide) hfails
  rw [determinePbpType, bind_read] at hrun
  dsimp only at hrun
  rw [if_neg hlong, sceIoLseek_bind] at hrun
  refine List.IsPrefix.trans ?_ (Respects.ok (R := CallsGrow) ?_ hrun)
  · rw [behindSeek_calls, behindRead_calls, List.append_assoc]
    exact List.prefix_refl _
  · refine respects_bind (grows_readInto _) fun r => ?_
    refine respects_ite (respects_pure _) (respects_ite (respects_pure _) ?_)
    refine respects_ite (respects_bind (grows_isPsxSigned _ _ _) fun _ => respects_pure _) ?_
    exact respects_ite (respects_bind (grows_isPsxSigned _ _ _) fun _ => respects_pure _)
      (respects_pure _)

theorem typeDelivered_of_uniform {s : Reading}
    (h : Uniform (RefusesShort PbpType.unknown.code) typeOf s) : TypeDelivered s := by
  have hheader : (s.delivered 40).length = 40 := by
    by_contra hne
    have hshort := lt_of_le_of_ne (delivered_length_le s 40) hne
    by_cases hfails : s.Fails 0
    · refine not_uniform_of_seek (.read 40 (s.delivered 40) (s.ret 40)) hshort
        (fun mem value t hrun => ?_) h
      obtain ⟨res, u, hu, hpure⟩ := bind_ok hrun
      obtain ⟨-, rfl⟩ := EStateM.Result.ok.inj hpure
      exact determinePbpType_seeks hfails hu
    · have hrefused := h.answer (typeOf_of_determine
        (determinePbpType_short hfails hshort (.holding .pbpHeader []))) (behindRead_calls s 40)
      rw [refusesShort_read, ret_of_not_fails hfails] at hrefused
      exact absurd (hrefused.1 (by omega)) (by decide)
  have hmagic : (s.atPsar.delivered 8).length = 8 := by
    by_contra hne
    have hshort := lt_of_le_of_ne (delivered_length_le s.atPsar 8) hne
    -- whatever the read answers, a memory that holds the magic of NPUMDIMG makes the type so
    have hzero : u32 (s.atPsar.ret 8) < Local.dataPsarMagic.size ∨
        overwrite ((Stack.holding .dataPsarMagic (bytes "NPUMDIMG")).array .dataPsarMagic)
          (s.atPsar.delivered 8) = bytes "NPUMDIMG" := by
      by_cases hfails : s.atPsar.Fails 0
      · rw [delivered_of_fails hfails, overwrite_nil, array_holding (by decide)]
        exact Or.inr rfl
      · exact Or.inl ((short_iff (by decide)).mpr ⟨hfails, hshort⟩)
    have hrefused := h.answer (typeOf_of_determine (determinePbpType_zero hheader hzero))
      (pastMagic_calls s)
    rw [refusesShort_read, refusesShort_lseek, refusesShort_read] at hrefused
    exact absurd (hrefused.2.1 (ret_lt_of_short hshort)) (by decide)
  refine ⟨hheader, hmagic, fun pbpType hkind heq hfails => ?_⟩
  have hsigned := signedAnswer_fails ((atSignature_fails s pbpType 0).mpr hfails)
    (.holding .pgdMagic pgd)
  rw [array_holding (by decide), if_pos rfl] at hsigned
  have hrun := determinePbpType_psx hheader (.holding .pgdMagic pgd) hkind heq
  have hrefused := h.answer (typeOf_of_determine hrun)
    (by rw [behindSignature_calls, pastMagic_calls, List.append_assoc])
  simp only [List.cons_append, List.nil_append, refusesShort_read, refusesShort_lseek] at hrefused
  have hret := ret_of_fails 4 ((atSignature_fails s pbpType 0).mpr hfails)
  have hunknown := hrefused.2.2.1 (by omega)
  rw [hsigned] at hunknown
  simp only [List.mem_cons, List.not_mem_nil, or_false] at hkind
  rcases hkind with rfl | rfl <;> exact absurd hunknown (by decide)

end VitaConnect.Pbp
