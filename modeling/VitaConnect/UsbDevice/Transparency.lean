import VitaConnect.UsbDevice.Hooks

/-! # When the hooks deliver what they should

One flag stands for the descriptors that are still to be read. It is set exactly when the last call
was no read, whatever descriptors the calls were about.
-/
namespace VitaConnect.UsbDevice
open CString Program
set_option autoImplicit false

/-! ## The flag -/

def EndsInRead (calls : List Call) : Prop := ∃ fd res data, calls.getLast? = some (.read fd res data)

theorem stepFirst_read (first : Bool) (fd : BitVec 32) (res : ℤ) (data : Memory) :
    stepFirst first (.read fd res data) = false := by
  rw [stepFirst, ksceIoReadPatched]
  split
  · split <;> rfl
  · next hfirst => simpa using hfirst

theorem firstAfter_eq_true_iff (calls : List Call) :
    firstAfter calls = true ↔ ¬ EndsInRead calls := by
  induction calls using List.reverseRecOn with
  | nil => simp [firstAfter, replay_nil, EndsInRead]
  | append_singleton calls call _ =>
    rw [firstAfter, replay_snoc]
    cases call with
    | «open» ret retry => simp [stepFirst, ksceIoOpenPatched, EndsInRead]
    | read fd res data => simp [stepFirst_read, EndsInRead]

/-! ## The patch -/

theorem patched_of_not_isField {data : Memory} {i : ℕ} (h : ¬ IsField i) : patched data i = data i := by
  unfold IsField at h
  rw [patched, Memory.write_outside, Memory.write_outside]
  · rw [leBytes_length]
    omega
  · rw [Memory.read_length]
    omega

theorem patched_sectorSize (data : Memory) {i : ℕ} (h : i < 2) :
    patched data (0x0B + i) = (leBytes 2 (2 ^ (data 0x6C).toNat)).getD i 0 := by
  rw [patched, Memory.write_outside _ _ _ (by omega), Memory.write_inside]
  rw [leBytes_length]
  exact h

theorem patched_volumeSize (data : Memory) {i : ℕ} (h : i < 4) :
    patched data (0x20 + i) = data (0x48 + i) := by
  rw [patched, Memory.write_inside, Memory.read_getD _ _ _ h, Memory.write_outside]
  · rw [leBytes_length]
    omega
  · rw [Memory.read_length]
    exact h

/-- The delivered bytes hold in place of the two fields what the patch would put there. -/
structure AlreadyPatched (res : ℤ) (data : Memory) : Prop where
  sectorSize : ∀ i < 2, 0x0B + i < res.toNat →
    data (0x0B + i) = (leBytes 2 (2 ^ (data 0x6C).toNat)).getD i 0
  volumeSize : ∀ i < 4, 0x20 + i < res.toNat → data (0x20 + i) = data (0x48 + i)

theorem read_patched_iff (res : ℤ) (data : Memory) :
    (patched data).read 0 res.toNat = data.read 0 res.toNat ↔ AlreadyPatched res data := by
  rw [Memory.read_eq_iff]
  simp only [Nat.zero_add]
  constructor
  · intro h
    constructor
    · intro i hi hlt
      rw [← h _ hlt, patched_sectorSize data hi]
    · intro i hi hlt
      rw [← h _ hlt, patched_volumeSize data hi]
  · intro h i hi
    by_cases hs : 0x0B ≤ i ∧ i < 0x0D
    · obtain ⟨j, rfl⟩ := Nat.exists_eq_add_of_le hs.1
      rw [patched_sectorSize data (by omega), h.sectorSize j (by omega) hi]
    by_cases hv : 0x20 ≤ i ∧ i < 0x24
    · obtain ⟨j, rfl⟩ := Nat.exists_eq_add_of_le hv.1
      rw [patched_volumeSize data (by omega), h.volumeSize j (by omega) hi]
    exact patched_of_not_isField fun h => h.elim hs hv

/-! ## The fields as numbers -/

/-- Two bytes hold no power of two from `2 ^ 16` on. -/
theorem lt_of_leWord_eq {bs : List Byte} {k : ℕ} (hlen : bs.length = 2) (h : leWord bs = 2 ^ k) :
    k < 16 := by
  have hlt := leWord_lt bs
  rw [h, hlen] at hlt
  exact (Nat.pow_lt_pow_iff_right (by decide)).mp (hlt : 2 ^ k < 2 ^ 16)

theorem leWord_sectorSize_iff (k : ℕ) : leWord (leBytes 2 (2 ^ k)) = 2 ^ k ↔ k < 16 := by
  constructor
  · exact lt_of_leWord_eq (leBytes_length 2 _)
  · intro h
    exact leWord_leBytes ((Nat.pow_lt_pow_iff_right (by decide)).mpr h : 2 ^ k < 2 ^ 16)

theorem leWord_low (data : Memory) (off : ℕ) :
    leWord (data.read off 8) % 2 ^ 32 = leWord (data.read off 4) := by
  have hsplit : data.read off 8 = data.read off 4 ++ data.read (off + 4) 4 := rfl
  have hlt := leWord_lt (data.read off 4)
  rw [Memory.read_length] at hlt
  rw [hsplit, leWord_append, Memory.read_length]
  omega

theorem patched_sectorSize_iff (data : Memory) :
    leWord ((patched data).read 0x0B 2) = 2 ^ (data 0x6C).toNat ↔ (data 0x6C).toNat < 16 := by
  have hbytes : (patched data).read 0x0B 2 = leBytes 2 (2 ^ (data 0x6C).toNat) := by
    have h0 := patched_sectorSize data (i := 0) (by decide)
    have h1 := patched_sectorSize data (i := 1) (by decide)
    exact congrArg₂ (fun b c => [b, c]) h0 h1
  rw [hbytes, leWord_sectorSize_iff]

theorem patched_volumeSize_eq (data : Memory) :
    leWord ((patched data).read 0x20 4) = leWord (data.read 0x48 8) % 2 ^ 32 := by
  rw [leWord_low, (Memory.read_eq_iff _ _ _ _ _).mpr fun i hi => patched_volumeSize data hi]

/-- A boot sector is already patched when its fields hold the numbers. -/
theorem alreadyPatched_iff {res : ℤ} {data : Memory} (hres : 0x6D ≤ res)
    (hshift : (data 0x6C).toNat < 16) :
    AlreadyPatched res data ↔ leWord (data.read 0x0B 2) = 2 ^ (data 0x6C).toNat ∧
      leWord (data.read 0x20 4) = leWord (data.read 0x48 8) % 2 ^ 32 := by
  have hsector := (leWord_sectorSize_iff _).mpr hshift
  rw [leWord_low, ← hsector]
  constructor
  · intro h
    constructor
    · have h0 := h.sectorSize 0 (by decide) (by omega)
      have h1 := h.sectorSize 1 (by decide) (by omega)
      exact congrArg leWord (congrArg₂ (fun b c => [b, c]) h0 h1)
    · exact congrArg leWord ((Memory.read_eq_iff _ _ _ _ _).mpr fun i hi =>
        h.volumeSize i hi (by omega))
  · rintro ⟨hs, hv⟩
    have hs' := leWord_inj ((Memory.read_length _ _ _).trans (leBytes_length _ _).symm) hs
    have hv' := leWord_inj ((Memory.read_length _ _ _).trans (Memory.read_length _ _ _).symm) hv
    constructor
    · intro i hi _
      rw [← hs', Memory.read_getD _ _ _ hi]
    · intro i hi _
      exact (Memory.read_eq_iff _ _ _ _ _).mp hv' i hi

/-! ## One read -/

/-- The flag agrees with what the read is. -/
structure Undisturbed (afterRead : Prop) (fresh : Bool) (res : ℤ) (data : Memory) : Prop where
  shift : fresh → BootSector res data → (data 0x6C).toNat < 16
  taken : fresh → BootSector res data → afterRead → AlreadyPatched res data
  left : ¬ (fresh ∧ BootSector res data) → data.read 0x3 5 = exfat → ¬ afterRead →
    AlreadyPatched res data

section Read
variable {first fresh : Bool} {res : ℤ} {data : Memory}

theorem delivers_of_boot_iff {answer : ReadAnswer} (hfresh : fresh) (hboot : BootSector res data) :
    Delivers fresh res data answer ↔ answer.ret = res ∧
      (∀ i < res.toNat, ¬ IsField i → answer.data i = data i) ∧
      leWord (answer.data.read 0x0B 2) = 2 ^ (data 0x6C).toNat ∧
      leWord (answer.data.read 0x20 4) = leWord (data.read 0x48 8) % 2 ^ 32 := by
  constructor
  · intro h
    exact ⟨h.ret, h.frame hfresh hboot, h.sectorSize hfresh hboot, h.volumeSize hfresh hboot⟩
  · rintro ⟨hret, hframe, hsector, hvolume⟩
    exact ⟨hret, fun h => absurd ⟨hfresh, hboot⟩ h, fun _ _ => hframe, fun _ _ => hsector,
      fun _ _ => hvolume⟩

theorem delivers_of_other_iff {answer : ReadAnswer} (hother : ¬ (fresh ∧ BootSector res data)) :
    Delivers fresh res data answer ↔
      answer.ret = res ∧ answer.data.read 0 res.toNat = data.read 0 res.toNat := by
  constructor
  · intro h
    exact ⟨h.ret, h.same hother⟩
  · rintro ⟨hret, hsame⟩
    exact ⟨hret, fun _ => hsame, fun hf hb => absurd ⟨hf, hb⟩ hother,
      fun hf hb => absurd ⟨hf, hb⟩ hother, fun hf hb => absurd ⟨hf, hb⟩ hother⟩

theorem delivers_iff :
    Delivers fresh res data (ksceIoReadPatched first res data) ↔
      Undisturbed (first = false) fresh res data := by
  by_cases hexception : fresh ∧ BootSector res data
  · obtain ⟨hfresh, hboot⟩ := hexception
    rw [delivers_of_boot_iff hfresh hboot]
    cases first with
    | true =>
      rw [ksceIoReadPatched, if_pos rfl, if_pos hboot.2]
      simp only [patched_sectorSize_iff, patched_volumeSize_eq, true_and, and_true]
      constructor
      · rintro ⟨-, hshift⟩
        exact ⟨fun _ _ => hshift, nofun, fun h => absurd ⟨hfresh, hboot⟩ h⟩
      · intro h
        exact ⟨fun i _ hi => patched_of_not_isField hi, h.shift hfresh hboot⟩
    | false =>
      rw [ksceIoReadPatched, if_neg Bool.false_ne_true]
      simp only [implies_true, true_and]
      constructor
      · rintro ⟨hsector, hvolume⟩
        have hshift := lt_of_leWord_eq (Memory.read_length data 0x0B 2) hsector
        exact ⟨fun _ _ => hshift,
          fun _ _ _ => (alreadyPatched_iff hboot.1 hshift).mpr ⟨hsector, hvolume⟩,
          fun h => absurd ⟨hfresh, hboot⟩ h⟩
      · intro h
        exact (alreadyPatched_iff hboot.1 (h.shift hfresh hboot)).mp (h.taken hfresh hboot trivial)
  · rw [delivers_of_other_iff hexception]
    have hundisturbed : Undisturbed (first = false) fresh res data ↔
        (data.read 0x3 5 = exfat → ¬ first = false → AlreadyPatched res data) := by
      constructor
      · exact fun h => h.left hexception
      · exact fun h => ⟨fun hf hb => absurd ⟨hf, hb⟩ hexception,
          fun hf hb => absurd ⟨hf, hb⟩ hexception, fun _ => h⟩
    rw [hundisturbed, ksceIoReadPatched]
    cases first with
    | true =>
      by_cases hexfat : data.read 0x3 5 = exfat
      · simp [hexfat, read_patched_iff]
      · simp [hexfat]
    | false => simp

end Read

/-! ## Runs -/

/-- The hooks are transparent in exactly the runs in which each read of a boot sector by a fresh
descriptor follows a call that is no read, and each other read behind such a call finds no `EXFAT`;
unless the delivered bytes are patched already. -/
theorem transparent_iff (calls : List Call) :
    Transparent calls ↔ ∀ p fd res data, p ++ [.read fd res data] <+: calls →
      Undisturbed (EndsInRead p) (freshAfter p fd) res data := by
  have hflag : ∀ p, (firstAfter p = false) = EndsInRead p := by
    intro p
    rw [← Bool.not_eq_true, firstAfter_eq_true_iff, not_not]
  simp only [Transparent, delivers_iff, hflag]

/-- A block that holds `EXFAT` where a boot sector does. -/
def exfatBlock : Memory := fun i => if i < 3 then 0 else exfat.getD (i - 3) 0

/-- An open that fails is enough to have a block of an old descriptor patched. -/
theorem not_transparent_failed_open :
    ¬ Transparent [.open 3 0, .read 3 512 (fun _ => 0), .open 0x80010002 0, .read 3 512 exfatBlock] := by
  intro h
  have hread := (h [.open 3 0, .read 3 512 (fun _ => 0), .open 0x80010002 0] 3 512 exfatBlock
    (List.prefix_refl _)).same
  have hold : freshAfter [.open 3 0, .read 3 512 (fun _ => 0), .open 0x80010002 0] 3 ≠ true := by
    decide
  have hbyte := congrArg (fun bs => bs.getD 0x0B 0) (hread fun hfresh => hold hfresh.1)
  revert hbyte
  decide +kernel

end VitaConnect.UsbDevice
