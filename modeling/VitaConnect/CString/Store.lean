import VitaConnect.CString.Words

/-! # Stores into a byte list

A store behind the end has no value. `AgreeOutside off n` relates the lists that differ at most in the
`n` bytes from `off` on.
-/
namespace VitaConnect.CString
set_option autoImplicit false

/-- The list with `xs` written from `off` on. -/
def store? (buf : List Byte) (off : ℕ) (xs : List Byte) : Option (List Byte) :=
  if off + xs.length ≤ buf.length then some (buf.take off ++ xs ++ buf.drop (off + xs.length)) else none

structure AgreeOutside (off n : ℕ) (buf buf' : List Byte) : Prop where
  length : buf'.length = buf.length
  bytes : ∀ k, k < off ∨ off + n ≤ k → buf'[k]? = buf[k]?

section Store
variable {buf buf' xs ys : List Byte} {off off' n n' : ℕ}

theorem store?_eq_some_iff : store? buf off xs = some buf' ↔
    off + xs.length ≤ buf.length ∧ buf' = buf.take off ++ xs ++ buf.drop (off + xs.length) := by
  unfold store?
  split
  · next h => simp [h, eq_comm]
  · next h => simp [h]

theorem store?_getElem? (h : store? buf off xs = some buf') (k : ℕ) :
    buf'[k]? = if k < off ∨ off + xs.length ≤ k then buf[k]? else xs[k - off]? := by
  obtain ⟨hle, rfl⟩ := store?_eq_some_iff.mp h
  have htake : (buf.take off).length = off := by
    rw [List.length_take]
    omega
  by_cases hbefore : k < off
  · rw [if_pos (.inl hbefore), List.append_assoc, List.getElem?_append_left (by omega),
      List.getElem?_take_of_lt hbefore]
  · rw [List.append_assoc, List.getElem?_append_right (by omega), htake]
    by_cases hin : k < off + xs.length
    · rw [if_neg (by omega), List.getElem?_append_left (by omega)]
    · rw [if_pos (by omega), List.getElem?_append_right (by omega), List.getElem?_drop]
      congr 1
      omega

theorem store?_length (h : store? buf off xs = some buf') : buf'.length = buf.length := by
  obtain ⟨hle, rfl⟩ := store?_eq_some_iff.mp h
  simp only [List.length_append, List.length_take, List.length_drop]
  omega

/-- What was written is there. -/
theorem slice?_store (h : store? buf off xs = some buf') : slice? buf' off xs.length = some xs := by
  have hlength := store?_length h
  obtain ⟨hle, rfl⟩ := store?_eq_some_iff.mp h
  refine slice?_append (buf.take off) (buf.drop (off + xs.length)) rfl ?_ rfl
  rw [List.length_take]
  omega

/-! ## Outside -/

/-- What does not meet the part that may differ is the same. -/
theorem AgreeOutside.take_drop_eq (h : AgreeOutside off n buf buf')
    (hoff : off' + n' ≤ off ∨ off + n ≤ off') : (buf'.drop off').take n' = (buf.drop off').take n' := by
  apply List.ext_getElem?
  intro k
  rw [List.getElem?_take, List.getElem?_take]
  split
  · rw [List.getElem?_drop, List.getElem?_drop]
    exact h.bytes _ (by omega)
  · rfl

theorem AgreeOutside.slice?_eq (h : AgreeOutside off n buf buf')
    (hoff : off' + n' ≤ off ∨ off + n ≤ off') : slice? buf' off' n' = slice? buf off' n' := by
  rw [slice?, slice?, h.length, h.take_drop_eq hoff]

/-- A store stays in the `n` bytes from `off` on exactly when what it writes behind them is what stands
there already. -/
theorem store?_agreeOutside_iff (hn : off + n ≤ buf.length) :
    (∃ buf', store? buf off xs = some buf' ∧ AgreeOutside off n buf buf') ↔
      xs.drop n <+: buf.drop (off + n) := by
  rw [List.prefix_iff_getElem?]
  constructor
  · rintro ⟨buf', hstore, hagree⟩ k hk
    rw [List.length_drop] at hk
    have hread := store?_getElem? hstore (off + n + k)
    rw [if_neg (by omega), hagree.bytes _ (.inr (by omega))] at hread
    rw [List.getElem?_drop, hread, List.getElem_drop, ← List.getElem?_eq_getElem]
    congr 1
    omega
  · intro hprefix
    have hle : off + xs.length ≤ buf.length := by
      by_cases hlong : n < xs.length
      · have hlast := hprefix (xs.length - n - 1) (by rw [List.length_drop]; omega)
        have hlt := (List.getElem?_eq_some_iff.mp hlast).1
        rw [List.length_drop] at hlt
        omega
      · omega
    have hstore : store? buf off xs = some (buf.take off ++ xs ++ buf.drop (off + xs.length)) :=
      store?_eq_some_iff.mpr ⟨hle, rfl⟩
    refine ⟨_, hstore, store?_length hstore, fun k hk => ?_⟩
    rw [store?_getElem? hstore]
    split
    · rfl
    · have hat := hprefix (k - off - n) (by rw [List.length_drop]; omega)
      rw [List.getElem?_drop, List.getElem_drop, ← List.getElem?_eq_getElem] at hat
      rw [show off + n + (k - off - n) = k by omega, show n + (k - off - n) = k - off by omega] at hat
      exact hat.symm

end Store

end VitaConnect.CString
