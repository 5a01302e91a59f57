import VitaConnect.CString.Basic
import Mathlib.Data.Nat.Digits.Defs
import Mathlib.Data.Nat.Digits.Lemmas

/-! # The conversions of `printf`

Decimal numbers with and without a field width, and the cut `snprintf` makes.
-/
namespace VitaConnect.CString
set_option autoImplicit false

/-- What `snprintf` with size `n` leaves of the text `s`. -/
def snprintf (n : ℕ) (s : CStr) : CStr := s.take (n - 1)

theorem snprintf_length_le (n : ℕ) (s : CStr) : (snprintf n s).length ≤ n - 1 := by
  simp [snprintf]

theorem snprintf_of_fits {n : ℕ} {s : CStr} (h : s.length < n) : snprintf n s = s :=
  List.take_of_length_le (by omega)

/-- `%u` -/
def natDec (n : ℕ) : CStr :=
  if n = 0 then [48] else (Nat.digits 10 n).reverse.map fun d => UInt8.ofNat (48 + d)

/-- `%d` -/
def intDec (z : ℤ) : CStr :=
  if z < 0 then 45 :: natDec z.natAbs else natDec z.toNat

theorem intDec_natCast (n : ℕ) : intDec n = natDec n := by
  rw [intDec, if_neg (by omega), Int.toNat_natCast]

/-- `%0wd` of a natural number. -/
def padZero (w n : ℕ) : CStr := List.replicate (w - (natDec n).length) 48 ++ natDec n

/-- `%-wd` of a natural number. -/
def padRight (w n : ℕ) : CStr := natDec n ++ List.replicate (w - (natDec n).length) 32

theorem natDec_length_le {n k : ℕ} (hk : 0 < k) (h : n < 10 ^ k) : (natDec n).length ≤ k := by
  unfold natDec
  split
  · exact hk
  · rw [List.length_map, List.length_reverse]
    exact (Nat.digits_length_le_iff (by norm_num) n).mpr h

theorem intDec_length_le {z : ℤ} {k : ℕ} (hk : 0 < k) (h : z.natAbs < 10 ^ k) :
    (intDec z).length ≤ k + 1 := by
  unfold intDec
  split
  · have := natDec_length_le hk h
    simpa using this
  · have := natDec_length_le (n := z.toNat) hk (by omega)
    omega

theorem mem_natDec {n : ℕ} {b : Byte} (h : b ∈ natDec n) : 48 ≤ b ∧ b ≤ 57 := by
  unfold natDec at h
  split at h
  · obtain rfl : b = 48 := by simpa using h
    decide
  · obtain ⟨d, hd, rfl⟩ := List.mem_map.mp h
    have hlt : d < 10 := Nat.digits_lt_base (by norm_num) (List.mem_reverse.mp hd)
    interval_cases d <;> decide

theorem mem_intDec {z : ℤ} {b : Byte} (h : b ∈ intDec z) : b = 45 ∨ (48 ≤ b ∧ b ≤ 57) := by
  unfold intDec at h
  split at h
  · rcases List.mem_cons.mp h with rfl | h
    · exact Or.inl rfl
    · exact Or.inr (mem_natDec h)
  · exact Or.inr (mem_natDec h)

end VitaConnect.CString
