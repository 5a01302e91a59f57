import VitaConnect.CString.Basic
import Mathlib.Data.Nat.Digits.Defs

/-! # Slices and little-endian words of a byte list

`slice? buf off n` is the `n` bytes of `buf` from `off` on, when all of them lie inside `buf`.
-/
namespace VitaConnect.CString
set_option autoImplicit false

/-! ## Slices -/

def slice? (buf : List Byte) (off n : ℕ) : Option (List Byte) :=
  if off + n ≤ buf.length then some ((buf.drop off).take n) else none

theorem slice?_eq_none_iff {buf : List Byte} {off n : ℕ} :
    slice? buf off n = none ↔ buf.length < off + n := by
  unfold slice?
  split
  · simp only [reduceCtorEq, false_iff]
    omega
  · simp only [true_iff]
    omega

theorem slice?_eq_some_iff {buf xs : List Byte} {off n : ℕ} :
    slice? buf off n = some xs ↔ (buf.drop off).take n = xs ∧ off + n ≤ buf.length := by
  unfold slice?
  split
  · next h => simp [h]
  · next h => simp [h]

theorem slice?_length {buf xs : List Byte} {off n : ℕ} (h : slice? buf off n = some xs) :
    xs.length = n := by
  obtain ⟨rfl, hle⟩ := slice?_eq_some_iff.mp h
  rw [List.length_take, List.length_drop]
  omega

theorem slice?_append {buf xs : List Byte} {off n : ℕ} (pre post : List Byte) (hbuf : buf = pre ++ xs ++ post)
    (hoff : pre.length = off) (hn : xs.length = n) : slice? buf off n = some xs := by
  subst hbuf hoff hn
  rw [slice?_eq_some_iff]
  constructor
  · rw [List.append_assoc, List.drop_left, List.take_left]
  · simp only [List.length_append]
    omega

/-! ## Words -/

/-- The number with the given bytes, the least significant one first. -/
def leWord (bs : List Byte) : ℕ := Nat.ofDigits 256 (bs.map UInt8.toNat)

/-- The `k` bytes of `n`. -/
def leBytes : ℕ → ℕ → List Byte
  | 0, _ => []
  | k + 1, n => UInt8.ofNat n :: leBytes k (n / 256)

@[simp] theorem leBytes_length (k n : ℕ) : (leBytes k n).length = k := by
  induction k generalizing n with
  | zero => rfl
  | succ k ih => rw [leBytes, List.length_cons, ih]

theorem leWord_cons (b : Byte) (bs : List Byte) : leWord (b :: bs) = b.toNat + 256 * leWord bs :=
  Nat.ofDigits_cons

theorem leWord_append (bs bs' : List Byte) :
    leWord (bs ++ bs') = leWord bs + 256 ^ bs.length * leWord bs' := by
  rw [leWord, List.map_append, Nat.ofDigits_append, List.length_map]
  rfl

theorem leWord_lt (bs : List Byte) : leWord bs < 256 ^ bs.length := by
  have hdigits : ∀ d ∈ bs.map UInt8.toNat, d < 256 := by
    intro d hd
    obtain ⟨b, -, rfl⟩ := List.mem_map.mp hd
    exact b.toNat_lt
  simpa [leWord] using Nat.ofDigits_lt_base_pow_length (by norm_num) hdigits

theorem leWord_inj {bs bs' : List Byte} (hlen : bs.length = bs'.length) (h : leWord bs = leWord bs') :
    bs = bs' := by
  have hdigits : ∀ xs : List Byte, ∀ d ∈ xs.map UInt8.toNat, d < 256 := by
    intro xs d hd
    obtain ⟨b, -, rfl⟩ := List.mem_map.mp hd
    exact b.toNat_lt
  have hmap := Nat.ofDigits_inj_of_len_eq (by norm_num) (by simpa using hlen) (hdigits bs)
    (hdigits bs') h
  exact List.map_injective_iff.mpr (fun _ _ => UInt8.toNat_inj.mp) hmap

theorem leWord_leBytes {k n : ℕ} (h : n < 256 ^ k) : leWord (leBytes k n) = n := by
  induction k generalizing n with
  | zero =>
    obtain rfl : n = 0 := by simpa using h
    rfl
  | succ k ih =>
    have hrest : n / 256 < 256 ^ k := Nat.div_lt_of_lt_mul (by rwa [pow_succ'] at h)
    rw [leBytes, leWord_cons, ih hrest]
    have hbyte : (UInt8.ofNat n).toNat = n % 256 := UInt8.toNat_ofNat'
    rw [hbyte]
    omega

end VitaConnect.CString
