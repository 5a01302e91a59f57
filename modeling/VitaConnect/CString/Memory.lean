import VitaConnect.CString.Words

/-! # String functions on memory

The memory behind a pointer is the list of the bytes from there to the end of the object it points
into. A function has no value when it reads behind that end.
-/
namespace VitaConnect.CString
set_option autoImplicit false

/-! ## Strings in arrays -/

/-- The array up to its first NUL. -/
def stringOf (array : List Byte) : CStr := array.takeWhile (· ≠ 0)

theorem zero_notMem_stringOf (array : List Byte) : 0 ∉ stringOf array := by
  intro hmem
  simpa using List.mem_takeWhile_imp hmem

theorem stringOf_of_zero_notMem {s : CStr} (h : 0 ∉ s) : stringOf s = s := by
  apply List.takeWhile_eq_self_iff.mpr
  intro b hb
  have hne : b ≠ 0 := by
    rintro rfl
    exact h hb
  simpa using hne

/-! ## `strcmp` -/

/-- `strcmp(mem, s) == 0` -/
def strcmp : List Byte → CStr → Option Bool
  | [], _ => none
  | b :: _, [] => some (b == 0)
  | b :: mem, c :: s => if b = c then strcmp mem s else some false

theorem strcmp_eq_none_iff {mem : List Byte} {s : CStr} : strcmp mem s = none ↔ mem <+: s := by
  induction mem generalizing s with
  | nil => simp [strcmp]
  | cons b mem ih =>
    cases s with
    | nil => simp [strcmp]
    | cons c s =>
      rw [strcmp, List.cons_prefix_cons]
      split
      · next h => simp [h, ih]
      · next h => simp [h]

theorem strcmp_eq_true_iff {mem : List Byte} {s : CStr} : strcmp mem s = some true ↔ s ++ [0] <+: mem := by
  induction mem generalizing s with
  | nil => simp [strcmp]
  | cons b mem ih =>
    cases s with
    | nil =>
      rw [strcmp, List.nil_append, List.cons_prefix_cons]
      simp only [List.nil_prefix, and_true, Option.some.injEq, beq_iff_eq]
      exact eq_comm
    | cons c s =>
      rw [strcmp, List.cons_append, List.cons_prefix_cons]
      split
      · next h => simp [h, ih]
      · next h => simp [Ne.symm h]

/-- A string in memory is equal to `s` when it is `s`. -/
theorem strcmp_string {key s : CStr} (hkey : 0 ∉ key) (hs : 0 ∉ s) (mem : List Byte) :
    strcmp (key ++ 0 :: mem) s = some (decide (key = s)) := by
  induction key generalizing s with
  | nil =>
    cases s with
    | nil => simp [strcmp]
    | cons c s =>
      have hc : (0 : Byte) ≠ c := fun h => hs (h ▸ List.mem_cons_self)
      simp [strcmp, hc]
  | cons b key ih =>
    cases s with
    | nil =>
      have hb : b ≠ 0 := fun h => hkey (h ▸ List.mem_cons_self)
      simp [strcmp, hb]
    | cons c s =>
      rw [List.cons_append, strcmp]
      split
      · next h =>
        rw [ih (fun h' => hkey (List.mem_cons_of_mem b h')) fun h' => hs (List.mem_cons_of_mem c h')]
        simp [h]
      · next h => simp [h]

/-! ## `strncpy` -/

/-- The `n` bytes that `strncpy(_, mem, n)` writes. -/
def strncpy : ℕ → List Byte → Option (List Byte)
  | 0, _ => some []
  | _ + 1, [] => none
  | n + 1, b :: mem => if b = 0 then some (List.replicate (n + 1) 0) else (strncpy n mem).map (b :: ·)

theorem strncpy_isSome_iff {n : ℕ} {mem : List Byte} :
    (strncpy n mem).isSome ↔ 0 ∈ mem.take n ∨ n ≤ mem.length := by
  induction n generalizing mem with
  | zero => simp [strncpy]
  | succ n ih =>
    cases mem with
    | nil => simp [strncpy]
    | cons b mem =>
      rw [strncpy, List.take_succ_cons]
      split
      · next h => simp [h]
      · next h => simp [ih, Ne.symm h]

/-- A string is copied up to `n` bytes, and padded with zeros. -/
theorem strncpy_string {s : CStr} (hs : 0 ∉ s) (n : ℕ) (mem : List Byte) :
    strncpy n (s ++ 0 :: mem) = some (s.take n ++ List.replicate (n - s.length) 0) := by
  induction n generalizing s with
  | zero => simp [strncpy]
  | succ n ih =>
    cases s with
    | nil => simp [strncpy]
    | cons b s =>
      have hb : b ≠ 0 := fun h => hs (h ▸ List.mem_cons_self)
      rw [List.cons_append, strncpy, if_neg hb, ih fun h => hs (List.mem_cons_of_mem b h)]
      simp

/-- What lies behind the NUL, or behind the first `n` bytes, is not read. -/
theorem strncpy_take {mem : List Byte} {n m : ℕ} (h : 0 ∈ mem.take m ∨ n ≤ m) :
    strncpy n (mem.take m) = strncpy n mem := by
  induction n generalizing mem m with
  | zero => simp [strncpy]
  | succ n ih =>
    cases mem with
    | nil => simp
    | cons b mem =>
      cases m with
      | zero => simp at h
      | succ m =>
        rw [List.take_succ_cons] at h ⊢
        rw [strncpy, strncpy]
        by_cases hb : b = 0
        · simp [hb]
        · have hread : 0 ∈ mem.take m ∨ n ≤ m := by
            rcases h with hmem | hle
            · exact .inl (by simpa [Ne.symm hb] using hmem)
            · exact .inr (by omega)
          rw [if_neg hb, if_neg hb, ih hread]

/-- `strncpy` and a NUL in the last byte leave the string, cut by one byte, and zeros behind it. -/
theorem strncpy_terminated (s : CStr) (n : ℕ) (post : List Byte) :
    ((s.take (n + 1) ++ List.replicate (n + 1 - s.length) 0) ++ post).set n 0
      = s.take n ++ List.replicate (n + 1 - (s.take n).length) 0 ++ post := by
  induction n generalizing s with
  | zero =>
    cases s with
    | nil => rfl
    | cons b s => simp
  | succ n ih =>
    cases s with
    | nil =>
      have hs := ih []
      simpa [List.replicate_succ] using hs
    | cons b s =>
      have hs := ih s
      simpa using hs

end VitaConnect.CString
