import Mathlib.Data.List.TakeWhile
import Mathlib.Data.List.Count
import Mathlib.Tactic

/-! # C strings as byte lists

A C string is the list of its bytes without the terminating NUL; a buffer is the list of the bytes
of an array. `ofBuffer` is what a reader of the array as a string sees, and it has no value when
the array holds no NUL. `strchr` and `strrchr` answer an index in place of a pointer.
-/
namespace VitaConnect.CString
set_option autoImplicit false

abbrev Byte := UInt8

/-- The bytes of a C string, the terminating NUL left out. -/
abbrev CStr := List Byte

def bytes (s : String) : CStr := s.toList.map fun c => UInt8.ofNat c.toNat

def slash : Byte := 47
def space : Byte := 32

/-! ## Reading an array as a string -/

def ofBuffer (buf : List Byte) : Option CStr :=
  if 0 ∈ buf then some (buf.takeWhile (· != 0)) else none

theorem ofBuffer_eq_some {buf : List Byte} {s : CStr} (h : ofBuffer buf = some s) :
    0 ∈ buf ∧ s = buf.takeWhile (· != 0) := by
  unfold ofBuffer at h
  split at h
  · next hz => exact ⟨hz, (Option.some.inj h).symm⟩
  · cases h

theorem ofBuffer_length_lt {buf : List Byte} {s : CStr} (h : ofBuffer buf = some s) :
    s.length < buf.length := by
  obtain ⟨hz, rfl⟩ := ofBuffer_eq_some h
  have hle : (buf.takeWhile (· != 0)).length ≤ buf.length := (List.takeWhile_prefix _).length_le
  rcases hle.lt_or_eq with hlt | heq
  · exact hlt
  · have hall : buf.takeWhile (· != 0) = buf := (List.takeWhile_prefix _).eq_of_length heq
    have := List.takeWhile_eq_self_iff.mp hall 0 hz
    simp at this

/-! ## Searching for a byte -/

def strchr (s : CStr) (c : Byte) : Option ℕ := s.findIdx? (· == c)

/-- The index of the last `c` of `s`. -/
def strrchr : CStr → Byte → Option ℕ
  | [], _ => none
  | b :: s, c =>
    match strrchr s c with
    | some i => some (i + 1)
    | none => if b = c then some 0 else none

theorem strrchr_eq_none_iff (s : CStr) (c : Byte) : strrchr s c = none ↔ c ∉ s := by
  induction s with
  | nil => simp [strrchr]
  | cons b s ih =>
    rw [strrchr]
    cases h : strrchr s c with
    | some i =>
      have hmem : c ∈ s := by
        by_contra hc
        rw [ih.mpr hc] at h
        cases h
      simp [hmem]
    | none =>
      have hmem := ih.mp h
      by_cases hb : b = c
      · simp [hb]
      · simp [hb, hmem, Ne.symm hb]

theorem strrchr_append_cons (s t : CStr) (c : Byte) (ht : c ∉ t) :
    strrchr (s ++ c :: t) c = some s.length := by
  induction s with
  | nil => simp [strrchr, (strrchr_eq_none_iff t c).mpr ht]
  | cons b s ih => simp [strrchr, ih]

theorem strrchr_eq_some {s : CStr} {c : Byte} {i : ℕ} (h : strrchr s c = some i) :
    ∃ pre post, s = pre ++ c :: post ∧ pre.length = i ∧ c ∉ post := by
  induction s generalizing i with
  | nil => simp [strrchr] at h
  | cons b s ih =>
    rw [strrchr] at h
    cases hs : strrchr s c with
    | some j =>
      obtain ⟨pre, post, rfl, hlen, hpost⟩ := ih hs
      rw [hs] at h
      exact ⟨b :: pre, post, rfl, by simpa [hlen] using h, hpost⟩
    | none =>
      rw [hs] at h
      by_cases hb : b = c
      · subst hb
        exact ⟨[], s, rfl, by simpa using h, (strrchr_eq_none_iff s b).mp hs⟩
      · simp [hb] at h

theorem strrchr_isSome {s : CStr} {c : Byte} (h : c ∈ s) : ∃ i, strrchr s c = some i := by
  cases hs : strrchr s c with
  | some i => exact ⟨i, rfl⟩
  | none => exact absurd h ((strrchr_eq_none_iff s c).mp hs)

theorem strrchr_eq_zero_iff (s : CStr) (c : Byte) :
    strrchr s c = some 0 ↔ s.head? = some c ∧ s.count c = 1 := by
  constructor
  · intro h
    obtain ⟨pre, post, rfl, hlen, hpost⟩ := strrchr_eq_some h
    obtain rfl := List.eq_nil_of_length_eq_zero hlen
    simp [List.count_eq_zero.mpr hpost]
  · rintro ⟨hhead, hcount⟩
    cases s with
    | nil => simp at hhead
    | cons b s =>
      obtain rfl : b = c := by simpa using hhead
      have hs : b ∉ s := by simpa [List.count_eq_zero] using hcount
      exact strrchr_append_cons [] s b hs

theorem strchr_eq_none_iff (s : CStr) (c : Byte) : strchr s c = none ↔ c ∉ s := by
  simp only [strchr, List.findIdx?_eq_none_iff, beq_eq_false_iff_ne]
  exact ⟨fun h hc => h c hc rfl, fun h b hb hbc => h (hbc ▸ hb)⟩

theorem strchr_append_cons (s t : CStr) (c : Byte) (hs : c ∉ s) :
    strchr (s ++ c :: t) c = some s.length := by
  induction s with
  | nil => simp [strchr, List.findIdx?_cons]
  | cons b s ih =>
    obtain ⟨hb, hs'⟩ : c ≠ b ∧ c ∉ s := by simpa using hs
    have := ih hs'
    simp only [strchr] at this ⊢
    simp [List.findIdx?_cons, this, Ne.symm hb]

end VitaConnect.CString
