import VitaConnect.CString.Basic

/-! # The conversions of `sscanf`

Each conversion takes the text still to be read and answers what it stores with the text behind it,
or `none` on a matching failure. None of them has a width: `%s` and `%[` store as many bytes as the
text supplies, and `%d` reads all the digits and saturates as `strtol` does on a 32-bit `long`.
-/
namespace VitaConnect.CString
set_option autoImplicit false

def isSpace (b : Byte) : Bool := b == 32 || (9 ≤ b && b ≤ 13)

def isDigit (b : Byte) : Bool := 48 ≤ b && b ≤ 57

/-! ## `%s` -/

/-- `%s`: blanks are skipped, then a run of non-blanks is stored. -/
def scanToken (s : CStr) : Option (CStr × CStr) :=
  match s.dropWhile isSpace with
  | [] => none
  | b :: t => some ((b :: t).takeWhile (! isSpace ·), (b :: t).dropWhile (! isSpace ·))

theorem scanToken_eq_some {s tok rest : CStr} (h : scanToken s = some (tok, rest)) :
    s = s.takeWhile isSpace ++ tok ++ rest ∧ tok ≠ [] ∧ (∀ b ∈ tok, isSpace b = false) ∧
      (∀ b ∈ rest.head?, isSpace b) := by
  rw [scanToken] at h
  cases hd : s.dropWhile isSpace with
  | nil => simp [hd] at h
  | cons b t =>
    have hb : isSpace b = false := by
      have := List.dropWhile_get_zero_not isSpace s (by rw [hd]; simp)
      simpa [hd] using this
    rw [hd] at h
    obtain ⟨rfl, rfl⟩ : _ ∧ _ := by simpa using h
    refine ⟨?_, by simp [hb], ?_, ?_⟩
    · rw [List.append_assoc, List.takeWhile_append_dropWhile, ← hd,
        List.takeWhile_append_dropWhile]
    · intro c hc
      simpa using List.mem_takeWhile_imp hc
    · intro c hc
      cases hr : (b :: t).dropWhile (! isSpace ·) with
      | nil => simp [hr] at hc
      | cons r rs =>
        have := List.dropWhile_get_zero_not (! isSpace ·) (b :: t) (by rw [hr]; simp)
        obtain rfl : r = c := by simpa [hr] using hc
        simpa [hr] using this

/-! ## `%[^...]` -/

/-- `%[^stop]`: the bytes up to the first one of `stop`, at least one of them. -/
def scanSet (stop : List Byte) (s : CStr) : Option CStr :=
  match s.takeWhile (· ∉ stop) with
  | [] => none
  | b :: t => some (b :: t)

theorem scanSet_eq_some_iff {stop : List Byte} {s t : CStr} :
    scanSet stop s = some t ↔ t ≠ [] ∧ s.takeWhile (· ∉ stop) = t := by
  rw [scanSet]
  split
  · next h =>
    rw [h]
    constructor
    · intro h'
      cases h'
    · rintro ⟨hne, rfl⟩
      exact absurd rfl hne
  · next b u h =>
    rw [h]
    constructor
    · rintro ⟨⟩
      exact ⟨by simp, rfl⟩
    · rintro ⟨-, rfl⟩
      rfl

theorem scanSet_ne_nil {stop : List Byte} {s t : CStr} (h : scanSet stop s = some t) : t ≠ [] :=
  (scanSet_eq_some_iff.mp h).1

theorem scanSet_isPrefix {stop : List Byte} {s t : CStr} (h : scanSet stop s = some t) : t <+: s :=
  (scanSet_eq_some_iff.mp h).2 ▸ List.takeWhile_prefix _

theorem scanSet_length_le {stop : List Byte} {s t : CStr} (h : scanSet stop s = some t) :
    t.length ≤ s.length := (scanSet_isPrefix h).length_le

theorem scanSet_notMem {stop : List Byte} {s t : CStr} (h : scanSet stop s = some t) {b : Byte}
    (hb : b ∈ t) : b ∉ stop := by
  obtain ⟨-, rfl⟩ := scanSet_eq_some_iff.mp h
  simpa using List.mem_takeWhile_imp hb

/-! ## `%d` -/

def decValue (ds : CStr) : ℕ := ds.foldl (fun n b => 10 * n + (b.toNat - 48)) 0

/-- `strtol` on a 32-bit `long`. -/
def saturate (z : ℤ) : ℤ := max (-2147483648) (min 2147483647 z)

def scanSign : CStr → Bool × CStr
  | [] => (false, [])
  | b :: s => if b = 45 then (true, s) else if b = 43 then (false, s) else (false, b :: s)

def scanInt (s : CStr) : Option (ℤ × CStr) :=
  let (neg, t) := scanSign (s.dropWhile isSpace)
  let v : ℤ := decValue (t.takeWhile isDigit)
  if t.takeWhile isDigit = [] then none
  else some (saturate (if neg then -v else v), t.dropWhile isDigit)

/-- `%d,%d,...` with `n` conversions: the numbers stored before the first failure. -/
def scanInts : ℕ → CStr → List ℤ
  | 0, _ => []
  | n + 1, s =>
    match scanInt s with
    | none => []
    | some (z, rest) =>
      match rest with
      | [] => [z]
      | b :: r => if b = 44 then z :: scanInts n r else [z]

end VitaConnect.CString
