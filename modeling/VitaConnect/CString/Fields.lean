import VitaConnect.CString.Basic

/-! # Blank-separated fields

`fields n` reads `n` fields of a text, each behind any number of blanks, and answers them with what is
behind the last one. A text that is written field by field, with blanks between them, is read back.
-/
namespace VitaConnect.CString
set_option autoImplicit false

def nextField (s : CStr) : CStr × CStr :=
  let t := s.dropWhile (· = space)
  (t.takeWhile (· ≠ space), t.dropWhile (· ≠ space))

def fields : ℕ → CStr → List CStr × CStr
  | 0, s => ([], s)
  | n + 1, s =>
    let rest := fields n (nextField s).2
    ((nextField s).1 :: rest.1, rest.2)

structure IsField (w : CStr) : Prop where
  ne_nil : w ≠ []
  space_notMem : space ∉ w

instance (w : CStr) : Decidable (IsField w) :=
  decidable_of_iff (w ≠ [] ∧ space ∉ w) ⟨fun h => ⟨h.1, h.2⟩, fun h => ⟨h.ne_nil, h.space_notMem⟩⟩

/-- Each field with the number of blanks behind it. -/
def padded (ws : List (CStr × ℕ)) : CStr := ws.flatMap fun p => p.1 ++ List.replicate p.2 space

theorem nextField_blanks (k : ℕ) (s : CStr) :
    nextField (List.replicate k space ++ s) = nextField s := by
  have hdrop : (List.replicate k space ++ s).dropWhile (· = space) = s.dropWhile (· = space) := by
    apply List.dropWhile_append_of_pos
    intro b hb
    simpa using List.eq_of_mem_replicate hb
  rw [nextField, hdrop, nextField]

theorem nextField_append {w rest : CStr} (hw : IsField w) (hrest : rest.head? = some space) :
    nextField (w ++ rest) = (w, rest) := by
  have hin : ∀ b ∈ w, b ≠ space := fun b hb h => hw.space_notMem (h ▸ hb)
  have hskip : (w ++ rest).dropWhile (· = space) = w ++ rest := by
    obtain ⟨b, t, rfl⟩ := List.exists_cons_of_ne_nil hw.ne_nil
    rw [List.cons_append, List.dropWhile_cons_of_neg]
    simpa using hin b List.mem_cons_self
  obtain ⟨c, t, rfl⟩ : ∃ c t, rest = c :: t := by
    cases rest with
    | nil => cases hrest
    | cons c t => exact ⟨c, t, rfl⟩
  obtain rfl : c = space := by simpa using hrest
  have htake : (w ++ space :: t).takeWhile (· ≠ space) = w := by
    rw [List.takeWhile_append_of_pos (by simpa using hin)]
    simp
  have hdrop : (w ++ space :: t).dropWhile (· ≠ space) = space :: t := by
    rw [List.dropWhile_append_of_pos (by simpa using hin)]
    simp
  rw [nextField, hskip, htake, hdrop]

theorem fields_blanks (n k : ℕ) (s : CStr) :
    fields (n + 1) (List.replicate k space ++ s) = fields (n + 1) s := by
  rw [fields, fields, nextField_blanks]

theorem fields_append {w rest : CStr} (hw : IsField w) (hrest : rest.head? = some space) (n : ℕ) :
    fields (n + 1) (w ++ rest) = (w :: (fields n rest).1, (fields n rest).2) := by
  rw [fields, nextField_append hw hrest]

theorem fields_padded {w tail : CStr} (hw : IsField w) (htail : tail.head? = some space)
    (ws : List (CStr × ℕ)) (hws : ∀ p ∈ ws, IsField p.1 ∧ 0 < p.2) :
    fields (ws.length + 1) (padded ws ++ (w ++ tail)) = (ws.map Prod.fst ++ [w], tail) := by
  induction ws with
  | nil => exact fields_append hw htail 0
  | cons p ws ih =>
    obtain ⟨hfield, hpos⟩ := hws p List.mem_cons_self
    have hsplit : padded (p :: ws) ++ (w ++ tail) =
        p.1 ++ (List.replicate p.2 space ++ (padded ws ++ (w ++ tail))) := by
      simp [padded]
    have hhead : (List.replicate p.2 space ++ (padded ws ++ (w ++ tail))).head? = some space := by
      obtain ⟨k, hk⟩ := Nat.exists_eq_succ_of_ne_zero hpos.ne'
      rw [hk]
      rfl
    rw [hsplit, List.length_cons, fields_append hfield hhead, fields_blanks,
      ih fun q hq => hws q (List.mem_cons_of_mem p hq)]
    rfl

end VitaConnect.CString
