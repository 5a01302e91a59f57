import VitaConnect.CString.Basic

/-! # Comparing strings without regard to case

`lower` is `tolower` of the C locale: the 26 letters of ASCII, and no other byte.
-/
namespace VitaConnect.CString
set_option autoImplicit false

def lower (b : Byte) : Byte := if 65 ≤ b ∧ b ≤ 90 then b + 32 else b

def lowered (s : CStr) : CStr := s.map lower

/-- `strcasecmp(s, t) == 0` -/
def strcasecmp (s t : CStr) : Bool := lowered s = lowered t

/-- `strncasecmp(s, t, n) == 0` -/
def strncasecmp (s t : CStr) (n : ℕ) : Bool := lowered (s.take n) = lowered (t.take n)

theorem lower_eq_iff {c : Byte} (hc : ¬ (65 ≤ c ∧ c ≤ 90)) (hc' : ¬ (97 ≤ c ∧ c ≤ 122)) (b : Byte) :
    lower b = c ↔ b = c := by
  unfold lower
  split
  · next h =>
    have hb : b ≠ c := fun hbc => hc (hbc ▸ h)
    have hb' : b + 32 ≠ c := by
      rintro rfl
      simp only [UInt8.le_iff_toNat_le, UInt8.toNat_add, UInt8.toNat_ofNat] at h hc'
      omega
    exact iff_of_false hb' hb
  · exact Iff.rfl

theorem lower_lower (b : Byte) : lower (lower b) = lower b := by
  by_cases h : 65 ≤ b ∧ b ≤ 90
  · have hlow : lower b = b + 32 := if_pos h
    rw [hlow, lower, if_neg]
    simp only [UInt8.le_iff_toNat_le, UInt8.toNat_add, UInt8.toNat_ofNat] at h ⊢
    omega
  · have hlow : lower b = b := if_neg h
    rw [hlow, hlow]

theorem lowered_append (s t : CStr) : lowered (s ++ t) = lowered s ++ lowered t := List.map_append

theorem lowered_cons (b : Byte) (s : CStr) : lowered (b :: s) = lower b :: lowered s := rfl

@[simp] theorem lowered_length (s : CStr) : (lowered s).length = s.length := List.length_map _

@[simp] theorem lowered_lowered (s : CStr) : lowered (lowered s) = lowered s := by
  rw [lowered, lowered, List.map_map]
  exact List.map_congr_left fun b _ => lower_lower b

theorem mem_lowered_iff {c : Byte} (hc : ¬ (65 ≤ c ∧ c ≤ 90)) (hc' : ¬ (97 ≤ c ∧ c ≤ 122)) (s : CStr) :
    c ∈ lowered s ↔ c ∈ s := by
  simp only [lowered, List.mem_map, lower_eq_iff hc hc', exists_eq_right]

theorem strcasecmp_iff (s t : CStr) : strcasecmp s t = true ↔ lowered s = lowered t := decide_eq_true_iff

theorem strncasecmp_length_iff (s t : CStr) :
    strncasecmp s t s.length = true ↔ lowered s <+: lowered t := by
  rw [strncasecmp, decide_eq_true_iff, List.take_length, lowered, lowered, List.map_take,
    List.prefix_iff_eq_take, List.length_map]
  rfl

end VitaConnect.CString
