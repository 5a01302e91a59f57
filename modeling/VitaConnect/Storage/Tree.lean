import Mathlib.Data.List.Infix
import Mathlib.Logic.Function.Basic

/-! # File trees

A tree gives the entry at each path, and a path is the list of its names. `below` is the part of a
tree that starts at a path, `graft` puts another part in its place, and two paths are `Apart` when
neither leads to the other: what is grafted at one of them is not seen at the other.
-/
namespace VitaConnect.Storage
set_option autoImplicit false

inductive Entry (β : Type)
  | dir
  | file (content : β)
  deriving DecidableEq

abbrev Tree (ν β : Type) := List ν → Option (Entry β)

variable {ν β : Type} [DecidableEq ν]

def Apart (p q : List ν) : Prop := ¬ p <+: q ∧ ¬ q <+: p

def Tree.empty : Tree ν β := fun _ => none

def Tree.below (t : Tree ν β) (p : List ν) : Tree ν β := fun rel => t (p ++ rel)

def Tree.graft (t : Tree ν β) (p : List ν) (u : Tree ν β) : Tree ν β := fun q =>
  if p <+: q then u (q.drop p.length) else t q

def Tree.move (t : Tree ν β) (src dst : List ν) : Tree ν β :=
  (t.graft src Tree.empty).graft dst (t.below src)

omit [DecidableEq ν] in
theorem Apart.symm {p q : List ν} (h : Apart p q) : Apart q p := ⟨h.2, h.1⟩

omit [DecidableEq ν] in
theorem apart_of_ne {a b : ν} (p q r : List ν) (h : a ≠ b) : Apart (p ++ a :: q) (p ++ b :: r) := by
  constructor
  · intro hprefix
    rw [List.prefix_append_right_inj, List.cons_prefix_cons] at hprefix
    exact h hprefix.1
  · intro hprefix
    rw [List.prefix_append_right_inj, List.cons_prefix_cons] at hprefix
    exact h hprefix.1.symm

omit [DecidableEq ν] in
theorem Apart.not_prefix_append {p q : List ν} (h : Apart p q) (rel : List ν) : ¬ p <+: q ++ rel := by
  intro hprefix
  rcases List.prefix_or_prefix_of_prefix hprefix (List.prefix_append q rel) with hpq | hqp
  · exact h.1 hpq
  · exact h.2 hqp

omit [DecidableEq ν] in
theorem Apart.append_ne {p q : List ν} (h : Apart p q) (r rel : List ν) : p ++ r ≠ q ++ rel :=
  fun heq => h.not_prefix_append rel (heq ▸ List.prefix_append p r)

omit [DecidableEq ν] in
@[simp] theorem Tree.below_apply (t : Tree ν β) (p rel : List ν) : t.below p rel = t (p ++ rel) := rfl

@[simp] theorem Tree.below_graft_self (t u : Tree ν β) (p : List ν) : (t.graft p u).below p = u := by
  funext rel
  rw [below_apply, graft, if_pos (List.prefix_append p rel), List.drop_left]

theorem Tree.below_graft_apart (t u : Tree ν β) {p q : List ν} (h : Apart p q) :
    (t.graft p u).below q = t.below q := by
  funext rel
  rw [below_apply, graft, if_neg (h.not_prefix_append rel), below_apply]

theorem Tree.graft_below_self (t : Tree ν β) (p : List ν) : t.graft p (t.below p) = t := by
  funext q
  rw [graft]
  split
  · next h =>
    obtain ⟨rel, rfl⟩ := h
    rw [List.drop_left, below_apply]
  · rfl

theorem Tree.below_move_dst (t : Tree ν β) (src dst : List ν) :
    (t.move src dst).below dst = t.below src := below_graft_self _ _ _

theorem Tree.below_move_src (t : Tree ν β) {src dst : List ν} (h : Apart src dst) :
    (t.move src dst).below src = Tree.empty := by
  rw [move, below_graft_apart _ _ h.symm, below_graft_self]

theorem Tree.below_move_apart (t : Tree ν β) {src dst q : List ν} (hsrc : Apart src q)
    (hdst : Apart dst q) : (t.move src dst).below q = t.below q := by
  rw [move, below_graft_apart _ _ hdst, below_graft_apart _ _ hsrc]

theorem Tree.below_update_apart (t : Tree ν β) (e : Option (Entry β)) {p q : List ν} (r : List ν)
    (h : Apart p q) : Tree.below (Function.update t (p ++ r) e) q = t.below q := by
  funext rel
  rw [below_apply, Function.update_of_ne (h.append_ne r rel).symm, below_apply]

theorem Tree.below_update_of_ne (t : Tree ν β) (e : Option (Entry β)) (p : List ν) {r rel : List ν}
    (h : rel ≠ r) : Tree.below (Function.update t (p ++ r) e) p rel = t.below p rel := by
  have hne : p ++ rel ≠ p ++ r := fun heq => h (List.append_cancel_left heq)
  rw [below_apply, Function.update_of_ne hne, below_apply]

end VitaConnect.Storage
