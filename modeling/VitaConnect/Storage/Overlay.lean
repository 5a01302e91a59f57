import VitaConnect.Storage.AppendStore
import Mathlib.Data.List.GetD

/-! # Sequences that are written piece by piece

A piece is data at a position. What a position holds behind a list of pieces is decided by the last one that covers
it, and a sequence that is written behind its end is filled up.
-/
namespace VitaConnect.Storage
set_option autoImplicit false

universe u
variable {α : Type u} (fill : α)

structure Piece (α : Type u) where
  offset : ℕ
  data : List α

def Piece.Covers (p : Piece α) (i : ℕ) : Prop := p.offset ≤ i ∧ i < p.offset + p.data.length

def writePieces (value : List α) (pieces : List (Piece α)) : List α :=
  pieces.foldl (fun value p => overwritten fill value p.offset p.data) value

theorem writePieces_append (value : List α) (p q : List (Piece α)) :
    writePieces fill value (p ++ q) = writePieces fill (writePieces fill value p) q := List.foldl_append

/-! ## One piece -/

theorem getD_replicate_fill (n i : ℕ) : (List.replicate n fill).getD i fill = fill := by
  rw [List.getD_eq_getElem?_getD, List.getElem?_replicate]
  split <;> rfl

theorem overwritten_getD_of_covers (value : List α) {p : Piece α} {i : ℕ} (h : p.Covers i) :
    (overwritten fill value p.offset p.data).getD i fill = p.data.getD (i - p.offset) fill := by
  obtain ⟨hle, hlt⟩ := h
  have hne : p.data ≠ [] := by
    intro hnil
    rw [hnil, List.length_nil] at hlt
    omega
  have hbefore : (value.take p.offset ++ List.replicate (p.offset - value.length) fill).length = p.offset := by
    rw [List.length_append, List.length_take, List.length_replicate]
    omega
  rw [overwritten, if_neg hne, List.append_assoc, List.getD_append_right _ _ _ _ (by omega), hbefore,
    List.getD_append _ _ _ _ (by omega)]

theorem overwritten_getD_of_not_covers (value : List α) {p : Piece α} {i : ℕ} (h : ¬ p.Covers i) :
    (overwritten fill value p.offset p.data).getD i fill = value.getD i fill := by
  by_cases hne : p.data = []
  · rw [overwritten, if_pos hne]
  have hbefore : (value.take p.offset ++ List.replicate (p.offset - value.length) fill).length = p.offset := by
    rw [List.length_append, List.length_take, List.length_replicate]
    omega
  have hmid : (value.take p.offset ++ List.replicate (p.offset - value.length) fill ++ p.data).length
      = p.offset + p.data.length := by
    rw [List.length_append, hbefore]
  rw [overwritten, if_neg hne]
  by_cases hi : i < p.offset
  · rw [List.append_assoc, List.getD_append _ _ _ _ (by omega)]
    by_cases hvalue : i < value.length
    · rw [List.getD_append _ _ _ _ (by rw [List.length_take]; omega), List.getD_eq_getElem?_getD,
        List.getElem?_take_of_lt hi, ← List.getD_eq_getElem?_getD]
    · rw [List.getD_append_right _ _ _ _ (by rw [List.length_take]; omega), getD_replicate_fill,
        List.getD_eq_default _ _ (by omega)]
  · have hbehind : p.offset + p.data.length ≤ i := by
      by_contra hlt
      exact h ⟨not_lt.mp hi, not_le.mp hlt⟩
    rw [List.getD_append_right _ _ _ _ (by omega), hmid, List.getD_eq_getElem?_getD, List.getElem?_drop,
      Nat.add_sub_cancel' hbehind, ← List.getD_eq_getElem?_getD]

theorem length_le_overwritten (value data : List α) (offset : ℕ) :
    value.length ≤ (overwritten fill value offset data).length := by
  by_cases h : data = []
  · rw [overwritten, if_pos h]
  · rw [overwritten_length fill value data offset h]
    exact Nat.le_max_left _ _

/-! ## Many pieces -/

theorem length_le_writePieces (value : List α) (pieces : List (Piece α)) :
    value.length ≤ (writePieces fill value pieces).length := by
  induction pieces generalizing value with
  | nil => exact le_refl _
  | cons p rest ih => exact (length_le_overwritten fill value p.data p.offset).trans (ih _)

/-- A sequence reaches as far as each piece that is written. -/
theorem end_le_writePieces (value : List α) {pieces : List (Piece α)} {p : Piece α} (hp : p ∈ pieces)
    (hdata : p.data ≠ []) : p.offset + p.data.length ≤ (writePieces fill value pieces).length := by
  obtain ⟨before, after, rfl⟩ := List.append_of_mem hp
  rw [writePieces_append]
  refine le_trans ?_ (length_le_writePieces fill _ after)
  rw [overwritten_length fill _ p.data p.offset hdata]
  exact Nat.le_max_right _ _

theorem writePieces_getD_of_none {pieces : List (Piece α)} {i : ℕ} (h : ∀ p ∈ pieces, ¬ p.Covers i)
    (value : List α) : (writePieces fill value pieces).getD i fill = value.getD i fill := by
  induction pieces generalizing value with
  | nil => rfl
  | cons p rest ih =>
    obtain ⟨hp, hrest⟩ := List.forall_mem_cons.mp h
    show (writePieces fill (overwritten fill value p.offset p.data) rest).getD i fill = _
    rw [ih hrest, overwritten_getD_of_not_covers fill value hp]

/-- The last piece that covers a position decides it. -/
theorem writePieces_getD_of_last (before : List (Piece α)) {p : Piece α} {after : List (Piece α)} {i : ℕ}
    (hp : p.Covers i) (hafter : ∀ q ∈ after, ¬ q.Covers i) (value : List α) :
    (writePieces fill value (before ++ p :: after)).getD i fill = p.data.getD (i - p.offset) fill := by
  rw [writePieces_append]
  show (writePieces fill (overwritten fill (writePieces fill value before) p.offset p.data) after).getD i fill = _
  rw [writePieces_getD_of_none fill hafter, overwritten_getD_of_covers fill _ hp]

end VitaConnect.Storage
