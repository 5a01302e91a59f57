import VitaConnect.CString.Format

/-! # Texts used as formats

`pieces` reads a text the way `printf` reads its format: literal bytes, `%%`, and conversions. Where
the caller passes no arguments, what a conversion writes is not determined; `supply` answers it.
-/
namespace VitaConnect.CString
set_option autoImplicit false

inductive Piece
  | literal (b : Byte)
  /-- `%%` -/
  | percent
  /-- What follows the `%`, up to the conversion character or the end of the format. -/
  | conversion (spec : CStr)
  deriving DecidableEq

/-- The bytes of the format that make a piece. -/
def Piece.spelling : Piece → CStr
  | .literal b => [b]
  | .percent => [37, 37]
  | .conversion spec => 37 :: spec

/-- Flags, field width, precision and length modifiers. -/
def isModifier (b : Byte) : Bool := b ∈ bytes "-+ #0123456789.*hlLqjzt"

/-- `piecesFrom (some spec)` has read `%` and `spec`. -/
def piecesFrom : Option CStr → CStr → List Piece
  | none, [] => []
  | none, b :: t =>
    if b = 37 then piecesFrom (some []) t else .literal b :: piecesFrom none t
  | some spec, [] => [.conversion spec]
  | some spec, b :: t =>
    if isModifier b then piecesFrom (some (spec ++ [b])) t
    else if b = 37 ∧ spec = [] then .percent :: piecesFrom none t
    else .conversion (spec ++ [b]) :: piecesFrom none t

def pieces (format : CStr) : List Piece := piecesFrom none format

/-- The output for the pieces of a format of which `n` conversions are done. -/
def printed (supply : ℕ → CStr → CStr) : ℕ → List Piece → CStr
  | _, [] => []
  | n, .literal b :: ps => b :: printed supply n ps
  | n, .percent :: ps => 37 :: printed supply n ps
  | n, .conversion spec :: ps => supply n spec ++ printed supply (n + 1) ps

/-- `vsnprintf(buf, size, format, args)` -/
def vsnprintf (size : ℕ) (supply : ℕ → CStr → CStr) (format : CStr) : CStr :=
  snprintf size (printed supply 0 (pieces format))

/-! ## The pieces spell the format -/

theorem spelling_piecesFrom (t : CStr) :
    (piecesFrom none t).flatMap Piece.spelling = t ∧
      ∀ spec, (piecesFrom (some spec) t).flatMap Piece.spelling = 37 :: (spec ++ t) := by
  induction t with
  | nil => simp [piecesFrom, Piece.spelling]
  | cons b t ih =>
    obtain ⟨hnone, hsome⟩ := ih
    constructor
    · rw [piecesFrom]
      split
      · next hb => rw [hsome, hb, List.nil_append]
      · rw [List.flatMap_cons, hnone]
        rfl
    · intro spec
      rw [piecesFrom]
      split
      · simp [hsome]
      · split
        · next hp => simp [hnone, hp.1, hp.2, Piece.spelling]
        · simp [hnone, Piece.spelling]

theorem spelling_pieces (t : CStr) : (pieces t).flatMap Piece.spelling = t :=
  (spelling_piecesFrom t).1

theorem pieces_of_no_percent {t : CStr} (h : 37 ∉ t) : pieces t = t.map .literal := by
  induction t with
  | nil => rfl
  | cons b t ih =>
    obtain ⟨hb, ht⟩ : 37 ≠ b ∧ 37 ∉ t := by simpa using h
    rw [pieces, piecesFrom, if_neg (Ne.symm hb), List.map_cons]
    exact congrArg _ (ih ht)

/-! ## Texts that come out as they are -/

theorem printed_literals (supply : ℕ → CStr → CStr) (n : ℕ) (t : CStr) :
    printed supply n (t.map .literal) = t := by
  induction t with
  | nil => rfl
  | cons b t ih => rw [List.map_cons, printed, ih]

/-- Conversions that write nothing make the output no longer than the format, and the output has
its length only where every piece is literal. -/
theorem printed_nothing_length (n : ℕ) (ps : List Piece) :
    (printed (fun _ _ => []) n ps).length ≤ (ps.flatMap Piece.spelling).length ∧
      ((printed (fun _ _ => []) n ps).length = (ps.flatMap Piece.spelling).length →
        ∃ t : CStr, ps = t.map .literal) := by
  induction ps generalizing n with
  | nil => exact ⟨le_rfl, fun _ => ⟨[], rfl⟩⟩
  | cons p ps ih =>
    cases p with
    | literal b =>
      obtain ⟨hle, heq⟩ := ih n
      simp only [printed, Piece.spelling, List.flatMap_cons, List.length_cons, List.length_append,
        List.length_nil]
      refine ⟨by omega, fun h => ?_⟩
      obtain ⟨t, rfl⟩ := heq (by omega)
      exact ⟨b :: t, rfl⟩
    | percent =>
      obtain ⟨hle, -⟩ := ih n
      simp only [printed, Piece.spelling, List.flatMap_cons, List.length_cons, List.length_append,
        List.length_nil]
      exact ⟨by omega, fun h => by omega⟩
    | conversion spec =>
      obtain ⟨hle, -⟩ := ih (n + 1)
      simp only [printed, Piece.spelling, List.flatMap_cons, List.length_cons, List.length_append,
        List.nil_append]
      exact ⟨by omega, fun h => by omega⟩

theorem literal_ne_percent {st : Option CStr} {t : CStr} {b : Byte}
    (h : .literal b ∈ piecesFrom st t) : b ≠ 37 := by
  induction st, t using piecesFrom.induct with
  | case1 => simp [piecesFrom] at h
  | case2 t ih =>
    rw [piecesFrom, if_pos rfl] at h
    exact ih h
  | case3 c t hc ih =>
    rw [piecesFrom, if_neg hc, List.mem_cons, Piece.literal.injEq] at h
    rcases h with rfl | h
    · exact hc
    · exact ih h
  | case4 spec => simp [piecesFrom] at h
  | case5 spec c t hm ih =>
    rw [piecesFrom, if_pos hm] at h
    exact ih h
  | case6 spec c t hm hp ih =>
    rw [piecesFrom, if_neg hm, if_pos hp] at h
    exact ih (by simpa using h)
  | case7 spec c t hm hp ih =>
    rw [piecesFrom, if_neg hm, if_neg hp] at h
    exact ih (by simpa using h)

theorem no_percent_of_literals {t u : CStr} (h : pieces t = u.map .literal) : 37 ∉ t := by
  have hu : t = u := by
    have hspell := spelling_pieces t
    rw [h, List.flatMap_map] at hspell
    simpa [Piece.spelling] using hspell.symm
  intro hmem
  have hpiece : .literal 37 ∈ pieces t := by
    rw [h]
    exact List.mem_map_of_mem (hu ▸ hmem)
  exact literal_ne_percent hpiece rfl

/-- A text passed as the format comes out as it is, whatever the missing arguments are, exactly when
it holds no `%` and fits. -/
theorem vsnprintf_verbatim_iff (size : ℕ) (t : CStr) :
    (∀ supply, vsnprintf size supply t = t) ↔ 37 ∉ t ∧ t.length ≤ size - 1 := by
  constructor
  · intro h
    have hcut : snprintf size (printed (fun _ _ => []) 0 (pieces t)) = t := h fun _ _ => []
    have hlen := congrArg List.length hcut
    rw [snprintf, List.length_take] at hlen
    obtain ⟨hle, heq⟩ := printed_nothing_length 0 (pieces t)
    rw [spelling_pieces] at hle heq
    obtain ⟨u, hu⟩ := heq (by omega)
    exact ⟨no_percent_of_literals hu, by omega⟩
  · rintro ⟨hp, hfits⟩ supply
    rw [vsnprintf, pieces_of_no_percent hp, printed_literals]
    exact List.take_of_length_le hfits

end VitaConnect.CString
