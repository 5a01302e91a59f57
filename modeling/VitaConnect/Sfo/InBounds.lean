import VitaConnect.Sfo.Search

/-! # Untrusted param.sfo files

Nothing in `sfo.c` knows the size of the buffer. `Inside` says of which buffers the two functions read
no byte behind the end.
-/
namespace VitaConnect.Sfo
open CString
set_option autoImplicit false

/-- The function ends, and answers one of its three results. -/
def Ends {α : Type} (r : Option (ℤ × α)) : Prop :=
  ∃ res out, r = some (res, out) ∧ res ∈ [0, invalidMagic, notFound]

/-- The data of the `i`-th entry lies inside as far as it is read. -/
def DataInside (Fits : List Byte → Prop) (buffer : List Byte) (i : ℕ) : Prop :=
  ∃ valofs dataofs, valofs? buffer = some valofs ∧ dataofs? buffer i = some dataofs ∧
    Fits (behind buffer valofs dataofs)

/-- Magic and count, every entry up to the first with the name, and its data lie inside. -/
def Inside (Good : ℕ → Prop) (buffer : List Byte) (name : CStr) : Prop :=
  4 ≤ buffer.length ∧ (magic? buffer = some sfoMagic → 20 ≤ buffer.length ∧
    ∀ count ∈ count? buffer, ∀ i < count, (∀ j < i, ¬ Matches buffer name j) →
      EntryInside buffer name i ∧ (Matches buffer name i → Good i))

section Word
variable {buffer : List Byte} {off size : ℕ}

theorem word?_eq_none_iff : word? buffer off size = none ↔ buffer.length < off + size := by
  rw [word?, Option.map_eq_none_iff, slice?_eq_none_iff]

theorem word?_isSome_iff : (∃ w, word? buffer off size = some w) ↔ off + size ≤ buffer.length := by
  rw [← Option.isSome_iff_exists, Option.isSome_iff_ne_none, ne_eq, word?_eq_none_iff, not_lt]

theorem word?_take {m : ℕ} (h : off + size ≤ m) : word? (buffer.take m) off size = word? buffer off size := by
  have hbytes : ((buffer.take m).drop off).take size = (buffer.drop off).take size := by
    rw [List.drop_take, List.take_take, min_eq_left (by omega)]
  rw [word?, word?, slice?, slice?, hbytes, List.length_take]
  congr 1
  split_ifs <;> first | rfl | omega

end Word

/-- What both functions share. -/
theorem getSfo_ends_iff {α : Type} (buffer : List Byte) (name : CStr) (out : α) (found : ℕ → Option α) :
    Ends (getSfo buffer name out found) ↔ Inside (fun i => (found i).isSome) buffer name := by
  unfold getSfo Inside
  cases hmagic : magic? buffer with
  | none =>
    have hlt := word?_eq_none_iff.mp hmagic
    refine iff_of_false ?_ fun h => absurd h.1 (by omega)
    rintro ⟨res, out', heq, -⟩
    cases heq
  | some magic =>
    have hle : 4 ≤ buffer.length := by simpa using word?_isSome_iff.mp ⟨magic, hmagic⟩
    by_cases hsfo : magic = sfoMagic
    · subst hsfo
      cases hcount : count? buffer with
      | none =>
        have hlt := word?_eq_none_iff.mp hcount
        refine iff_of_false ?_ fun h => absurd (h.2 rfl).1 (by omega)
        rintro ⟨res, out', heq, -⟩
        simp at heq
      | some count =>
        have hheader : 20 ≤ buffer.length := by simpa using word?_isSome_iff.mp ⟨count, hcount⟩
        have hsearch := search_inside_iff buffer name (fun i => (found i).isSome) count 0
        simp only [zero_add, Nat.zero_le, true_implies] at hsearch
        simp only [hle, hheader, true_implies, true_and, Option.mem_def, Option.some.injEq,
          forall_eq', ← hsearch]
        cases hentry : search buffer name count 0 with
        | none => simp [Ends, hentry]
        | some entry =>
          cases entry with
          | none => simp [Ends, hentry]
          | some i => cases hfound : found i <;> simp [Ends, hentry, hfound]
    · refine iff_of_true ⟨invalidMagic, out, ?_, by simp⟩ ⟨hle, fun h => absurd (Option.some.inj h) hsfo⟩
      simp [hsfo]

theorem dataOf_bind_isSome_iff {α : Type} (buffer : List Byte) (i : ℕ) (f : List Byte → Option α) :
    ((dataOf buffer i).bind f).isSome ↔ DataInside (fun data => (f data).isSome) buffer i := by
  unfold dataOf DataInside
  cases valofs? buffer with
  | none => simp
  | some valofs => cases dataofs? buffer i <;> simp

/-- What `getSfoValue` reads of the data. -/
def ValueFits (data : List Byte) : Prop := 4 ≤ data.length

/-- What `getSfoString` reads of the data: up to a NUL, or `length` bytes. -/
def StringFits (length : ℕ) (data : List Byte) : Prop := 0 ∈ data.take length ∨ length ≤ data.length

theorem value_isSome_iff (buffer : List Byte) (i : ℕ) :
    ((dataOf buffer i).bind fun data => word? data 0 4).isSome ↔ DataInside ValueFits buffer i := by
  rw [dataOf_bind_isSome_iff]
  simp only [Option.isSome_iff_exists, word?_isSome_iff, zero_add]
  rfl

theorem string_isSome_iff (buffer string : List Byte) (length i : ℕ) :
    ((dataOf buffer i).bind fun data => (strncpy length data).bind fun copied =>
      some ((copied ++ string.drop length).set (length - 1) 0)).isSome ↔
        DataInside (StringFits length) buffer i := by
  rw [dataOf_bind_isSome_iff]
  simp only [Option.isSome_bind, Option.isSome_some, Option.any_true, strncpy_isSome_iff]
  rfl

/-- **Untrusted buffers.** `getSfoValue` and `getSfoString` read only bytes of the buffer, and end with
one of their results, exactly when what they look at lies inside. -/
theorem sfo_ends_iff (buffer : List Byte) (name : CStr) :
    (∀ value, Ends (getSfoValue buffer name value) ↔ Inside (DataInside ValueFits buffer) buffer name) ∧
      ∀ string length, Ends (getSfoString buffer name string length) ↔
        Inside (DataInside (StringFits length) buffer) buffer name := by
  constructor
  · intro value
    refine (getSfo_ends_iff buffer name value _).trans ?_
    simp only [Inside, Option.bind_eq_bind, value_isSome_iff]
  · intro string length
    refine (getSfo_ends_iff buffer name string _).trans ?_
    simp only [Inside, Option.bind_eq_bind, string_isSome_iff]

/-- A header that announces an entry, at the end of its file. -/
def bareHeader : List Byte :=
  leBytes 4 sfoMagic ++ leBytes 4 0x101 ++ leBytes 4 20 ++ leBytes 4 20 ++ leBytes 4 1

theorem sfo_bareHeader :
    ¬ Ends (getSfoString bareHeader (bytes "TITLE_ID") (List.replicate 12 0) 12) ∧
      ¬ Ends (getSfoValue bareHeader (bytes "TITLE_ID") 0) := by
  have hstring : getSfoString bareHeader (bytes "TITLE_ID") (List.replicate 12 0) 12 = none := by decide
  have hvalue : getSfoValue bareHeader (bytes "TITLE_ID") 0 = none := by decide
  rw [hstring, hvalue]
  simp [Ends]

end VitaConnect.Sfo
