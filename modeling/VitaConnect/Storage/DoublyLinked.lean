import Mathlib.Data.List.Basic
import Mathlib.Logic.Function.Basic
import Mathlib.Tactic

/-! # Doubly linked lists

`Walk next p l q` says that following `next` from the pointer `p` visits the nodes `l` one after
another and arrives at `q`. A list is doubly linked when `next` leads from its head through it to
NULL, and `prev` from its last node back through it to NULL. Both directions obey the same rules.
-/
namespace VitaConnect.Storage
set_option autoImplicit false

variable {ν : Type} {next prev : ν → Option ν} {p q : Option ν} {l xs ys : List ν} {c : ν}

def Walk (next : ν → Option ν) : Option ν → List ν → Option ν → Prop
  | p, [], q => p = q
  | p, c :: l, q => p = some c ∧ Walk next (next c) l q

/-! ## Walks -/

theorem walk_append : Walk next p (xs ++ ys) q ↔ ∃ m, Walk next p xs m ∧ Walk next m ys q := by
  induction xs generalizing p with
  | nil => simp [Walk]
  | cons c xs ih => simp only [List.cons_append, Walk, ih, exists_and_left, and_assoc]

theorem Walk.start (h : Walk next p l q) : p = l.head?.or q := by
  cases l with
  | nil => exact h
  | cons c l => exact h.1

theorem Walk.frame {next' : ν → Option ν} (h : Walk next p l q) (hsame : ∀ c ∈ l, next' c = next c) :
    Walk next' p l q := by
  induction l generalizing p with
  | nil => exact h
  | cons c l ih =>
    rw [List.forall_mem_cons] at hsame
    refine ⟨h.1, ?_⟩
    rw [hsame.1]
    exact ih h.2 hsame.2

section Change
variable [DecidableEq ν]

/-- The last node of a walk gets a new successor. -/
theorem Walk.redirect {r : Option ν} (h : Walk next p (xs ++ [c]) q) (hc : c ∉ xs) :
    Walk (Function.update next c r) p (xs ++ [c]) r := by
  obtain ⟨m, hxs, rfl, -⟩ := walk_append.mp h
  refine walk_append.mpr ⟨some c, hxs.frame fun d hd => Function.update_of_ne ?_ _ _, rfl, ?_⟩
  · rintro rfl
    exact hc hd
  · exact Function.update_self _ _ _

/-- `node->next = q`, where `node` may be NULL and nothing happens. -/
def relink (next : ν → Option ν) (node q : Option ν) : ν → Option ν :=
  match node with
  | none => next
  | some p => Function.update next p q

@[simp] theorem relink_none : relink next none q = next := rfl

@[simp] theorem relink_some : relink next (some c) q = Function.update next c q := rfl

/-- Writing the successor of `c` elsewhere does not change the successor of `c`. -/
theorem relink_self (next : ν → Option ν) (node : Option ν) (c : ν) :
    relink next node (next c) c = next c := by
  cases node with
  | none => rfl
  | some p =>
    by_cases hp : c = p
    · subst hp
      exact Function.update_self _ _ _
    · exact Function.update_of_ne hp _ _

theorem Walk.unlink (h : Walk next p (xs ++ c :: ys) none) (hnodup : (xs ++ c :: ys).Nodup) :
    Walk (relink next xs.getLast? (next c)) (if p = some c then next c else p) (xs ++ ys) none := by
  obtain ⟨m, hxs, rfl, hys⟩ := walk_append.mp h
  rcases List.eq_nil_or_concat xs with rfl | ⟨zs, b, rfl⟩
  · obtain rfl : p = some c := hxs
    rw [if_pos rfl]
    exact hys
  · rw [List.concat_eq_append] at hxs hnodup ⊢
    rw [List.append_assoc, List.nodup_append] at hnodup
    obtain ⟨-, hrest, hdisjoint⟩ := hnodup
    have hb : b ∉ zs := fun hb => hdisjoint b hb b List.mem_cons_self rfl
    have hby : ∀ d ∈ ys, d ≠ b := by
      rintro d hd rfl
      exact (List.nodup_cons.mp hrest).1 (List.mem_cons_of_mem c hd)
    have hp : p ≠ some c := by
      rw [hxs.start]
      cases zs with
      | nil =>
        rintro ⟨⟩
        exact (List.nodup_cons.mp hrest).1 List.mem_cons_self
      | cons d zs =>
        rintro ⟨⟩
        exact hdisjoint c List.mem_cons_self c (List.mem_cons_of_mem b List.mem_cons_self) rfl
    rw [if_neg hp, List.getLast?_concat]
    exact walk_append.mpr
      ⟨next c, hxs.redirect hb, hys.frame fun d hd => Function.update_of_ne (hby d hd) _ _⟩

end Change

/-! ## Both directions -/

structure DoublyLinked (next prev : ν → Option ν) (head : Option ν) (l : List ν) : Prop where
  nodup : l.Nodup
  forward : Walk next head l none
  backward : Walk prev l.getLast? l.reverse none

namespace DoublyLinked
variable {head : Option ν}

theorem nil : DoublyLinked next prev none [] := ⟨List.nodup_nil, rfl, rfl⟩

theorem head_eq (h : DoublyLinked next prev head l) : head = l.head? := by
  rw [h.forward.start, Option.or_none]

theorem symm (h : DoublyLinked next prev head l) : DoublyLinked prev next l.getLast? l.reverse := by
  refine ⟨List.nodup_reverse.mpr h.nodup, h.backward, ?_⟩
  rw [List.getLast?_reverse, List.reverse_reverse, ← h.head_eq]
  exact h.forward

theorem next_eq (h : DoublyLinked next prev head (xs ++ c :: ys)) : next c = ys.head? := by
  obtain ⟨m, -, -, hys⟩ := walk_append.mp h.forward
  rw [hys.start, Option.or_none]

theorem prev_eq (h : DoublyLinked next prev head (xs ++ c :: ys)) : prev c = xs.getLast? := by
  have hsymm := h.symm
  rw [List.reverse_append, List.reverse_cons, List.append_assoc, List.singleton_append] at hsymm
  rw [hsymm.next_eq, List.head?_reverse]

theorem prev_head (h : DoublyLinked next prev head l) (hc : head = some c) : prev c = none := by
  cases l with
  | nil =>
    rw [h.head_eq] at hc
    cases hc
  | cons d l =>
    obtain rfl : d = c := by
      rw [h.head_eq] at hc
      exact Option.some.inj hc
    have hprev : prev d = ([] : List ν).getLast? := prev_eq h
    exact hprev

theorem prev_of_next {d : ν} (h : DoublyLinked next prev head l) (hc : c ∈ l)
    (hnext : next c = some d) : prev d = some c := by
  obtain ⟨xs, ys, rfl⟩ := List.append_of_mem hc
  rw [h.next_eq] at hnext
  cases ys with
  | nil => cases hnext
  | cons e ys =>
    obtain rfl : e = d := Option.some.inj hnext
    rw [← List.singleton_append, ← List.append_assoc] at h
    rw [h.prev_eq, List.getLast?_concat]

theorem next_iff_prev {d : ν} (h : DoublyLinked next prev head l) (hc : c ∈ l) (hd : d ∈ l) :
    next c = some d ↔ prev d = some c :=
  ⟨h.prev_of_next hc, h.symm.prev_of_next (List.mem_reverse.mpr hd)⟩

variable [DecidableEq ν]

theorem push (h : DoublyLinked next prev head l) (hc : c ∉ l) :
    DoublyLinked (Function.update next c head) (Function.update (relink prev head (some c)) c none)
      (some c) (c :: l) := by
  have hne : ∀ d ∈ l, d ≠ c := by
    rintro d hd rfl
    exact hc hd
  refine ⟨List.nodup_cons.mpr ⟨hc, h.nodup⟩, ⟨rfl, ?_⟩, ?_⟩
  · rw [Function.update_self]
    exact h.forward.frame fun d hd => Function.update_of_ne (hne d hd) _ _
  · rw [List.reverse_cons, walk_append]
    refine ⟨some c, ?_, rfl, Function.update_self _ _ _⟩
    have hback := h.backward
    have hhead := h.head_eq
    cases l with
    | nil => rfl
    | cons b l =>
      have hb : b ∉ l.reverse := by
        rw [List.mem_reverse]
        exact (List.nodup_cons.mp h.nodup).1
      rw [List.head?_cons] at hhead
      rw [hhead, List.getLast?_cons_cons]
      rw [List.reverse_cons] at hback ⊢
      refine (hback.redirect hb).frame fun d hd => Function.update_of_ne (hne d ?_) _ _
      rwa [← List.reverse_cons, List.mem_reverse] at hd

theorem unlink (h : DoublyLinked next prev head (xs ++ c :: ys)) :
    DoublyLinked (relink next (prev c) (next c)) (relink prev (next c) (prev c))
      (if head = some c then next c else head) (xs ++ ys) := by
  have hsublist : (xs ++ ys).Sublist (xs ++ c :: ys) := (List.sublist_cons_self c ys).append_left xs
  refine ⟨h.nodup.sublist hsublist, ?_, ?_⟩
  · rw [h.prev_eq]
    exact h.forward.unlink h.nodup
  · have hback := h.symm
    rw [List.reverse_append, List.reverse_cons, List.append_assoc, List.singleton_append] at hback
    have hwalk := hback.forward.unlink hback.nodup
    rw [List.getLast?_reverse, ← h.next_eq, ← List.reverse_append] at hwalk
    have hstart := hwalk.start
    rw [Option.or_none, List.head?_reverse] at hstart
    rwa [hstart] at hwalk

end DoublyLinked

end VitaConnect.Storage
