import Mathlib.Data.List.Basic
import Mathlib.Data.List.Count
import Mathlib.Tactic

/-! # Texts up to repeated and trailing separators

`normal c` collapses every run of the separator `c` to one and drops a last one. It does not touch
the items that are not separators, which `content` counts.
-/
namespace VitaConnect.CString
set_option autoImplicit false

universe u
variable {α : Type u} [DecidableEq α] (c : α)

def collapse : List α → List α
  | [] => []
  | a :: p => if a = c ∧ p.head? = some c then collapse p else a :: collapse p

def trimLast (p : List α) : List α := if p.getLast? = some c then p.dropLast else p

def normal (p : List α) : List α := trimLast c (collapse c p)

def content (p : List α) : ℕ := p.countP (· ≠ c)

variable {c}

theorem content_append (p q : List α) : content c (p ++ q) = content c p + content c q :=
  List.countP_append

theorem content_collapse (p : List α) : content c (collapse c p) = content c p := by
  induction p with
  | nil => rfl
  | cons a p ih =>
    rw [collapse]
    split
    · next h => rw [ih, content, content, List.countP_cons_of_neg (by simpa using h.1)]
    · rw [← List.singleton_append, content_append, ih, ← content_append, List.singleton_append]

theorem content_trimLast (p : List α) : content c (trimLast c p) = content c p := by
  unfold trimLast
  split
  · next h =>
    obtain ⟨q, rfl⟩ := List.getLast?_eq_some_iff.mp h
    rw [List.dropLast_concat, content_append]
    simp [content]
  · rfl

theorem content_normal (p : List α) : content c (normal c p) = content c p := by
  rw [normal, content_trimLast, content_collapse]

theorem collapse_eq_nil_iff (p : List α) : collapse c p = [] ↔ p = [] := by
  induction p with
  | nil => simp [collapse]
  | cons a p ih =>
    rw [collapse]
    split
    · next h =>
      have hne : p ≠ [] := by
        rintro rfl
        simp at h
      simp [ih, hne]
    · simp

theorem collapse_getLast? (p : List α) : (collapse c p).getLast? = p.getLast? := by
  induction p with
  | nil => rfl
  | cons a p ih =>
    rw [collapse]
    cases p with
    | nil => simp [collapse]
    | cons b p =>
      have hne : collapse c (b :: p) ≠ [] := by simp [collapse_eq_nil_iff]
      split
      · rw [ih, List.getLast?_cons_cons]
      · rw [← List.singleton_append, List.getLast?_append_of_ne_nil _ hne, ih,
          List.getLast?_cons_cons]

theorem collapse_append_singleton (p : List α) :
    collapse c (p ++ [c])
      = if p.getLast? = some c then collapse c p else collapse c p ++ [c] := by
  induction p with
  | nil => simp [collapse]
  | cons a p ih =>
    cases p with
    | nil =>
      by_cases ha : a = c
      · subst ha
        simp [collapse]
      · simp [collapse, ha]
    | cons b p =>
      have hhead : ((b :: p) ++ [c]).head? = (b :: p).head? := rfl
      rw [List.cons_append, collapse, hhead, ih, List.getLast?_cons_cons, collapse.eq_2 c a (b :: p)]
      split_ifs <;> rfl

theorem normal_append_singleton (p : List α) : normal c (p ++ [c]) = normal c p := by
  rw [normal, normal, collapse_append_singleton]
  split
  · rfl
  · next h =>
    rw [trimLast, if_pos List.getLast?_concat, List.dropLast_concat, trimLast, collapse_getLast?,
      if_neg h]

end VitaConnect.CString
