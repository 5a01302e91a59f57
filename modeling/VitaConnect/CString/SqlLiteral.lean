import VitaConnect.CString.Basic

/-! # String literals of SQL

A single quote ends a literal, and two of them stand for one. `readLiteral` reads a text that is one
complete literal; the only literal that denotes `s` is `literal s`.
-/
namespace VitaConnect.CString
set_option autoImplicit false

def quote : Byte := 39

/-- Behind its opening quote. -/
def readQuoted : List Byte → Option (List Byte)
  | [] => none
  | [b] => if b = quote then some [] else none
  | b :: c :: text =>
    if b = quote then
      if c = quote then (readQuoted text).map (quote :: ·) else none
    else (readQuoted (c :: text)).map (b :: ·)

def readLiteral : List Byte → Option (List Byte)
  | [] => none
  | b :: text => if b = quote then readQuoted text else none

def doubled (s : List Byte) : List Byte := s.flatMap fun b => if b = quote then [quote, quote] else [b]

def literal (s : List Byte) : List Byte := quote :: (doubled s ++ [quote])

theorem doubled_cons (b : Byte) (s : List Byte) :
    doubled (b :: s) = (if b = quote then [quote, quote] else [b]) ++ doubled s := rfl

theorem doubled_of_notMem {s : List Byte} (h : quote ∉ s) : doubled s = s := by
  induction s with
  | nil => rfl
  | cons b s ih =>
    have hb : b ≠ quote := fun hb => h (hb ▸ List.mem_cons_self)
    rw [doubled_cons, if_neg hb, ih fun hs => h (List.mem_cons_of_mem b hs)]
    rfl

theorem length_doubled (s : List Byte) : (doubled s).length = s.length + s.count quote := by
  induction s with
  | nil => rfl
  | cons b s ih =>
    rw [doubled_cons, List.length_append, ih, List.length_cons, List.count_cons]
    by_cases hb : b = quote
    · simp [hb]
      omega
    · simp [hb]
      omega

theorem doubled_eq_self_iff {s : List Byte} : doubled s = s ↔ quote ∉ s := by
  refine ⟨fun h => ?_, doubled_of_notMem⟩
  have hlength := congrArg List.length h
  rw [length_doubled] at hlength
  exact List.count_eq_zero.mp (by omega)

theorem readQuoted_doubled (s : List Byte) : readQuoted (doubled s ++ [quote]) = some s := by
  induction s with
  | nil => rfl
  | cons b s ih =>
    rw [doubled_cons]
    by_cases hb : b = quote
    · subst hb
      simp [readQuoted, ih]
    · have hrest : ∃ c text, doubled s ++ [quote] = c :: text := by
        cases doubled s with
        | nil => exact ⟨quote, [], rfl⟩
        | cons c text => exact ⟨c, text ++ [quote], rfl⟩
      obtain ⟨c, text, hrest⟩ := hrest
      rw [if_neg hb, List.append_assoc, List.singleton_append, hrest, readQuoted, if_neg hb, ← hrest, ih]
      rfl

theorem readQuoted_eq_some {text s : List Byte} (h : readQuoted text = some s) :
    text = doubled s ++ [quote] := by
  induction text using readQuoted.induct generalizing s with
  | case1 => cases h
  | case2 =>
    obtain rfl : [] = s := by simpa [readQuoted] using h
    rfl
  | case3 b hb => simp [readQuoted, hb] at h
  | case4 text ih =>
    rw [readQuoted, if_pos rfl, if_pos rfl] at h
    obtain ⟨s', hs', rfl⟩ := Option.map_eq_some_iff.mp h
    rw [ih hs', doubled_cons, if_pos rfl]
    rfl
  | case5 c text hc => simp [readQuoted, hc] at h
  | case6 b c text hb ih =>
    rw [readQuoted, if_neg hb] at h
    obtain ⟨s', hs', rfl⟩ := Option.map_eq_some_iff.mp h
    rw [ih hs', doubled_cons, if_neg hb]
    rfl

theorem readLiteral_eq_some_iff {text s : List Byte} : readLiteral text = some s ↔ text = literal s := by
  constructor
  · intro h
    cases text with
    | nil => cases h
    | cons b text =>
      rw [readLiteral] at h
      split at h
      · next hb => rw [hb, literal, readQuoted_eq_some h]
      · cases h
  · rintro rfl
    rw [literal, readLiteral, if_pos rfl, readQuoted_doubled]

end VitaConnect.CString
