import VitaConnect.CString.Words
import VitaConnect.Program.History

/-! # The hooks of the USB storage driver (`modules/usbdevice/main.c`)

The driver's calls of `ksceIoOpen` and `ksceIoRead` go through two hooks that share the flag `first`.
A read finds in memory what the hooked function has left there: the bytes it delivered, and behind
them whatever the buffer and its surroundings held.
-/
namespace VitaConnect.UsbDevice
open CString Program
set_option autoImplicit false

/-! ## Memory -/

/-- The bytes from `data` on. -/
abbrev Memory := ℕ → Byte

def Memory.read (data : Memory) (off n : ℕ) : List Byte := (List.range n).map fun i => data (off + i)

def Memory.write (data : Memory) (off : ℕ) (bs : List Byte) : Memory := fun i =>
  if off ≤ i ∧ i < off + bs.length then bs.getD (i - off) 0 else data i

theorem Memory.read_length (data : Memory) (off n : ℕ) : (data.read off n).length = n := by
  rw [Memory.read, List.length_map, List.length_range]

theorem Memory.read_eq_iff (data data' : Memory) (off off' n : ℕ) :
    data.read off n = data'.read off' n ↔ ∀ i < n, data (off + i) = data' (off' + i) := by
  simp [Memory.read, List.map_inj_left]

theorem Memory.write_inside (data : Memory) (off : ℕ) (bs : List Byte) {i : ℕ} (h : i < bs.length) :
    data.write off bs (off + i) = bs.getD i 0 := by
  rw [Memory.write, if_pos ⟨by omega, by omega⟩, Nat.add_sub_cancel_left]

theorem Memory.write_outside (data : Memory) (off : ℕ) (bs : List Byte) {i : ℕ}
    (h : i < off ∨ off + bs.length ≤ i) : data.write off bs i = data i := by
  rw [Memory.write, if_neg (by omega)]

theorem Memory.read_getD (data : Memory) (off n : ℕ) {i : ℕ} (h : i < n) :
    (data.read off n).getD i 0 = data (off + i) := by
  simp [Memory.read, h]

/-! ## The hooks -/

/-- A call of the driver with the answers of the hooked function: the results of `ksceIoOpen` for the
flags as they are and without `SCE_O_WRONLY`, or the result of `ksceIoRead` and the memory it
leaves. -/
inductive Call
  | open (ret retry : BitVec 32)
  | read (fd : BitVec 32) (res : ℤ) (data : Memory)

structure ReadAnswer where
  first : Bool
  ret : ℤ
  data : Memory

def ksceIoOpenPatched (ret retry : BitVec 32) : Bool × BitVec 32 :=
  (true, if ret = 0x800F090D then retry else ret)

/-- The bytes that stand for an exFAT boot sector. -/
def exfat : List Byte := bytes "EXFAT"

/-- The sector size is cut to 16 bits, and so is 0 from a shift of 16 on. -/
def patched (data : Memory) : Memory :=
  let data := data.write 0x0B (leBytes 2 (2 ^ (data 0x6C).toNat))
  data.write 0x20 (data.read 0x48 4)

def ksceIoReadPatched (first : Bool) (res : ℤ) (data : Memory) : ReadAnswer :=
  if first then
    if data.read 0x3 5 = exfat then { first := false, ret := res, data := patched data }
    else { first := false, ret := res, data := data }
  else { first := first, ret := res, data := data }

def stepFirst (first : Bool) : Call → Bool
  | .open ret retry => (ksceIoOpenPatched ret retry).1
  | .read _ res data => (ksceIoReadPatched first res data).first

/-- The flag after the calls since `module_start`. -/
def firstAfter (calls : List Call) : Bool := replay stepFirst true calls

/-! ## The purpose of the hooks -/

/-- A descriptor is fresh from the call that opens it to its first read. -/
def stepFresh (fresh : BitVec 32 → Bool) : Call → BitVec 32 → Bool
  | .open ret retry => fun fd =>
    (fd = (ksceIoOpenPatched ret retry).2 ∧ 0 ≤ fd.toInt) ∨ fresh fd
  | .read fd _ _ => fun fd' => fd' ≠ fd ∧ fresh fd'

def freshAfter (calls : List Call) : BitVec 32 → Bool := replay stepFresh (fun _ => false) calls

def BootSector (res : ℤ) (data : Memory) : Prop := 0x6D ≤ res ∧ data.read 0x3 5 = exfat

/-- The bytes of the sector size and of the volume size. -/
def IsField (i : ℕ) : Prop := (0x0B ≤ i ∧ i < 0x0D) ∨ (0x20 ≤ i ∧ i < 0x24)

/-- What a read should answer. -/
structure Delivers (fresh : Bool) (res : ℤ) (data : Memory) (answer : ReadAnswer) : Prop where
  ret : answer.ret = res
  same : ¬ (fresh ∧ BootSector res data) →
    answer.data.read 0 res.toNat = data.read 0 res.toNat
  frame : fresh → BootSector res data → ∀ i < res.toNat, ¬ IsField i → answer.data i = data i
  sectorSize : fresh → BootSector res data →
    leWord (answer.data.read 0x0B 2) = 2 ^ (data 0x6C).toNat
  volumeSize : fresh → BootSector res data →
    leWord (answer.data.read 0x20 4) = leWord (data.read 0x48 8) % 2 ^ 32

/-- Every read of the run answers what it should. -/
def Transparent (calls : List Call) : Prop :=
  ∀ p fd res data, p ++ [.read fd res data] <+: calls →
    Delivers (freshAfter p fd) res data (ksceIoReadPatched (firstAfter p) res data)

end VitaConnect.UsbDevice
