import Mathlib.Data.List.Basic
import Mathlib.Tactic

/-! # Rows whose keys are unique

`insertNew` adds a row unless there is one with its key, so the first row of a key stays for good. What a
sequence of inserts leaves is said by lookups: the row that was there, or else the first one of the sequence.
-/
namespace VitaConnect.Storage
set_option autoImplicit false

universe u v
variable {κ : Type u} {β : Type v} [BEq κ]

def insertNew (rows : List (κ × β)) (row : κ × β) : List (κ × β) :=
  if rows.lookup row.1 = none then rows ++ [row] else rows

def insertAllNew (rows new : List (κ × β)) : List (κ × β) := new.foldl insertNew rows

section Rows
variable {rows new : List (κ × β)} {row : κ × β}

theorem insertNew_of_absent (h : rows.lookup row.1 = none) : insertNew rows row = rows ++ [row] := if_pos h

theorem insertNew_of_present (h : rows.lookup row.1 ≠ none) : insertNew rows row = rows := if_neg h

theorem insertAllNew_cons : insertAllNew rows (row :: new) = insertAllNew (insertNew rows row) new := rfl

theorem insertAllNew_append (more : List (κ × β)) :
    insertAllNew rows (new ++ more) = insertAllNew (insertAllNew rows new) more := List.foldl_append

theorem prefix_insertNew (rows : List (κ × β)) (row : κ × β) : rows <+: insertNew rows row := by
  unfold insertNew
  split_ifs
  · exact List.prefix_append rows [row]
  · exact List.prefix_rfl

theorem prefix_insertAllNew (rows new : List (κ × β)) : rows <+: insertAllNew rows new := by
  induction new generalizing rows with
  | nil => exact List.prefix_rfl
  | cons row new ih => exact (prefix_insertNew rows row).trans (ih _)

theorem mem_insertNew {x : κ × β} (h : x ∈ insertNew rows row) : x ∈ rows ∨ x = row := by
  unfold insertNew at h
  split_ifs at h
  · exact (List.mem_append.mp h).imp_right List.mem_singleton.mp
  · exact Or.inl h

theorem mem_insertAllNew {x : κ × β} (h : x ∈ insertAllNew rows new) : x ∈ rows ∨ x ∈ new := by
  induction new generalizing rows with
  | nil => exact Or.inl h
  | cons row new ih =>
    rcases ih h with hrows | hnew
    · exact (mem_insertNew hrows).imp_right fun heq => List.mem_cons.mpr (Or.inl heq)
    · exact Or.inr (List.mem_cons_of_mem row hnew)

/-- Rows whose keys are all there are not inserted. -/
theorem insertAllNew_of_present (h : ∀ row ∈ new, rows.lookup row.1 ≠ none) : insertAllNew rows new = rows := by
  induction new with
  | nil => rfl
  | cons row new ih =>
    rw [insertAllNew_cons, insertNew_of_present (h row List.mem_cons_self)]
    exact ih fun other hother => h other (List.mem_cons_of_mem row hother)

end Rows

/-! ## Lookups -/

section Lookups
variable [LawfulBEq κ] {rows : List (κ × β)}

theorem lookup_insertNew (rows : List (κ × β)) (row : κ × β) (k : κ) :
    (insertNew rows row).lookup k = (rows.lookup k).or ([row].lookup k) := by
  unfold insertNew
  split_ifs with habsent
  · exact List.lookup_append
  · obtain ⟨b, hb⟩ := Option.ne_none_iff_exists'.mp habsent
    by_cases hk : k = row.1
    · rw [hk, hb]
      rfl
    · have hother : [row].lookup k = none := by
        rw [List.lookup_cons, beq_eq_false_iff_ne.mpr hk]
        rfl
      rw [hother, Option.or_none]

theorem lookup_insertAllNew (rows new : List (κ × β)) (k : κ) :
    (insertAllNew rows new).lookup k = (rows.lookup k).or (new.lookup k) := by
  induction new generalizing rows with
  | nil => exact Option.or_none.symm
  | cons row new ih =>
    have hcons : (row :: new).lookup k = ([row].lookup k).or (new.lookup k) := by
      rw [← List.lookup_append]
      rfl
    rw [insertAllNew_cons, ih, lookup_insertNew, Option.or_assoc, hcons]

theorem lookup_eq_none_iff_notMem (rows : List (κ × β)) (k : κ) :
    rows.lookup k = none ↔ k ∉ rows.map Prod.fst := by
  rw [List.lookup_eq_none_iff, List.mem_map, not_exists]
  refine forall_congr' fun row => ?_
  rw [not_and, bne_iff_ne]
  exact forall_congr' fun _ => ne_comm

theorem nodup_insertNew (h : (rows.map Prod.fst).Nodup) (row : κ × β) :
    ((insertNew rows row).map Prod.fst).Nodup := by
  unfold insertNew
  split_ifs with habsent
  · rw [List.map_append, List.nodup_append]
    refine ⟨h, List.nodup_singleton _, fun k hk k' hk' => ?_⟩
    rw [List.map_singleton, List.mem_singleton] at hk'
    rintro rfl
    exact (lookup_eq_none_iff_notMem rows row.1).mp habsent (hk' ▸ hk)
  · exact h

theorem nodup_insertAllNew (h : (rows.map Prod.fst).Nodup) (new : List (κ × β)) :
    ((insertAllNew rows new).map Prod.fst).Nodup := by
  induction new generalizing rows with
  | nil => exact h
  | cons row new ih => exact ih (nodup_insertNew h row)

/-- The rows that a sequence has left are all there for a part of the same sequence. -/
theorem insertAllNew_of_subset (rows : List (κ × β)) {new again : List (κ × β)} (h : again ⊆ new) :
    insertAllNew (insertAllNew rows new) again = insertAllNew rows new := by
  refine insertAllNew_of_present fun row hrow hnone => ?_
  rw [lookup_insertAllNew, Option.or_eq_none_iff] at hnone
  exact (lookup_eq_none_iff_notMem new row.1).mp hnone.2 (List.mem_map_of_mem (h hrow))

end Lookups

end VitaConnect.Storage
