import Mathlib.Algebra.BigOperators.Fin
import Mathlib.Algebra.Order.BigOperators.Group.Finset
import Mathlib.Data.Multiset.AddSub
import Mathlib.Tactic

/-! # A table of slots and the bag it stands for

A slot holds a name, keeps the name of an entry that is gone, or was never filled. `add` takes the first
slot that holds nothing, and `remove` searches for the name among all slots, those that hold nothing too;
the search cannot pass a slot that was never filled. The table stands for the bag of the names it holds.
-/
namespace VitaConnect.Storage
set_option autoImplicit false

universe u
variable {ν : Type u} {n : ℕ}

inductive Slot (ν : Type u)
  | unset
  | stale (name : ν)
  | live (name : ν)
  deriving DecidableEq

abbrev SlotTable (ν : Type u) (n : ℕ) := Fin n → Slot ν

namespace Slot

def isLive : Slot ν → Bool
  | live _ => true
  | _ => false

def held : Slot ν → Multiset ν
  | live a => {a}
  | _ => 0

def liveName : Slot ν → Option ν
  | live a => some a
  | _ => none

/-- Whether a search for `a` ends at the slot. -/
def stops [DecidableEq ν] (a : ν) : Slot ν → Bool
  | unset => true
  | stale b | live b => decide (b = a)

theorem card_held (x : Slot ν) : x.held.card = if x.isLive then 1 else 0 := by
  cases x <;> rfl

theorem mem_held_iff {x : Slot ν} {a : ν} : a ∈ x.held ↔ x = live a := by
  cases x with
  | unset => simp [held]
  | stale b => simp [held]
  | live b => simp [held, eq_comm]

end Slot

/-! ## The bag -/

def Bag.add (n : ℕ) (a : ν) (b : Multiset ν) : ℤ × Multiset ν :=
  if b.card < n then (1, a ::ₘ b) else (0, b)

def Bag.remove [DecidableEq ν] (a : ν) (b : Multiset ν) : ℤ × Multiset ν :=
  if a ∈ b then (1, b.erase a) else (0, b)

def SlotTable.bag (t : SlotTable ν n) : Multiset ν := ∑ i, (t i).held

theorem mem_bag_iff {t : SlotTable ν n} {a : ν} : a ∈ t.bag ↔ ∃ i, t i = .live a := by
  simp [SlotTable.bag, Multiset.mem_sum, Slot.mem_held_iff]

theorem bag_update (t : SlotTable ν n) (i : Fin n) (x : Slot ν) :
    SlotTable.bag (Function.update t i x) + (t i).held = t.bag + x.held := by
  have hupdate : SlotTable.bag (Function.update t i x) =
      x.held + ∑ j ∈ Finset.univ \ {i}, (t j).held := by
    have hcomp : ∀ j, (Function.update t i x j).held =
        Function.update (fun j => (t j).held) i x.held j := by
      intro j
      exact congrFun (Function.comp_update Slot.held t i x) j
    rw [SlotTable.bag, Finset.sum_congr rfl fun j _ => hcomp j,
      Finset.sum_update_of_mem (Finset.mem_univ i)]
  rw [hupdate, SlotTable.bag,
    Finset.sum_eq_add_sum_sdiff_singleton_of_mem (Finset.mem_univ i) fun j => (t j).held]
  abel

theorem bag_update_of_stale {t : SlotTable ν n} {i : Fin n} {b : ν} (h : t i = .stale b) (a : ν) :
    SlotTable.bag (Function.update t i (.stale a)) = t.bag := by
  have hupdate := bag_update t i (.stale a)
  rw [h] at hupdate
  simpa [Slot.held] using hupdate

theorem bag_of_live {t : SlotTable ν n} {i : Fin n} {b : ν} (h : t i = .live b) :
    t.bag = b ::ₘ SlotTable.bag (Function.update t i (.stale b)) := by
  have hupdate := bag_update t i (.stale b)
  rw [h] at hupdate
  rw [← Multiset.singleton_add, add_comm]
  exact (add_zero _).symm.trans hupdate.symm

theorem card_bag (t : SlotTable ν n) :
    t.bag.card = (Finset.univ.filter fun i => (t i).isLive = true).card := by
  rw [SlotTable.bag, Multiset.card_sum, Finset.card_filter]
  exact Finset.sum_congr rfl fun i _ => (t i).card_held

theorem card_bag_le (t : SlotTable ν n) : t.bag.card ≤ n := by
  rw [card_bag]
  exact (Finset.card_filter_le _ _).trans (by simp)

theorem card_bag_lt_iff (t : SlotTable ν n) : t.bag.card < n ↔ ∃ i, (t i).isLive = false := by
  have hfin : n = (Finset.univ : Finset (Fin n)).card := by simp
  rw [card_bag]
  constructor
  · intro h
    by_contra hall
    simp only [not_exists, Bool.not_eq_false] at hall
    rw [Finset.filter_true_of_mem fun i _ => hall i, ← hfin] at h
    exact lt_irrefl n h
  · rintro ⟨i, hi⟩
    conv_rhs => rw [hfin]
    apply Finset.card_lt_card
    rw [Finset.filter_ssubset]
    exact ⟨i, Finset.mem_univ i, by simp [hi]⟩

/-! ## The table -/

/-- The first index with `p`. -/
theorem find_finRange_eq_some_iff {p : Fin n → Bool} {i : Fin n} :
    (List.finRange n).find? p = some i ↔ p i = true ∧ ∀ j < i, p j = false := by
  rw [← Fin.find?_eq_find?_finRange, Fin.find?_eq_some_iff]

theorem find_finRange_eq_none_iff {p : Fin n → Bool} :
    (List.finRange n).find? p = none ↔ ∀ i, p i = false := by
  rw [← Fin.find?_eq_find?_finRange, Fin.find?_eq_none_iff]

def SlotTable.add (a : ν) (t : SlotTable ν n) : ℤ × SlotTable ν n :=
  match (List.finRange n).find? fun i => !(t i).isLive with
  | some i => (1, Function.update t i (.live a))
  | none => (0, t)

/-- `none` when the search meets a slot that was never filled. -/
def SlotTable.remove [DecidableEq ν] (a : ν) (t : SlotTable ν n) : Option (ℤ × SlotTable ν n) :=
  match (List.finRange n).find? fun i => (t i).stops a with
  | none => some (0, t)
  | some i =>
    match t i with
    | .unset => none
    | _ => some (1, Function.update t i (.stale a))

theorem add_bag (a : ν) (t : SlotTable ν n) :
    ((t.add a).1, (t.add a).2.bag) = Bag.add n a t.bag := by
  unfold SlotTable.add Bag.add
  cases hfind : (List.finRange n).find? fun i => !(t i).isLive with
  | none =>
    have hfull : ¬ t.bag.card < n := by
      rw [card_bag_lt_iff]
      rintro ⟨i, hi⟩
      have := find_finRange_eq_none_iff.mp hfind i
      simp [hi] at this
    rw [if_neg hfull]
  | some i =>
    have hfree : (t i).isLive = false := by
      simpa using (find_finRange_eq_some_iff.mp hfind).1
    have hheld : (t i).held = 0 := by
      rw [← Multiset.card_eq_zero, Slot.card_held, hfree]
      rfl
    have hupdate := bag_update t i (.live a)
    rw [hheld, add_zero] at hupdate
    rw [if_pos ((card_bag_lt_iff t).mpr ⟨i, hfree⟩)]
    refine Prod.ext rfl ?_
    show SlotTable.bag (Function.update t i (.live a)) = _
    rw [hupdate, add_comm]
    rfl

section Remove
variable [DecidableEq ν]

/-- The first slot at which the search for `a` ends, if there is one, holds a name. -/
def SlotTable.FirstLive (a : ν) (t : SlotTable ν n) : Prop :=
  ∀ i, (t i).stops a = true → (∀ j < i, (t j).stops a = false) → (t i).isLive = true

theorem stops_of_live {t : SlotTable ν n} {a : ν} {i : Fin n} (h : t i = .live a) :
    (t i).stops a = true := by
  rw [h]
  exact decide_eq_true rfl

theorem remove_of_find {t : SlotTable ν n} {a : ν} {i : Fin n}
    (hfind : (List.finRange n).find? (fun i => (t i).stops a) = some i) :
    t.remove a = if t i = .unset then none else some (1, Function.update t i (.stale a)) := by
  rw [SlotTable.remove, hfind]
  cases h : t i with
  | unset => simp [h]
  | stale b => simp [h]
  | live b => simp [h]

theorem firstLive_iff_of_find {t : SlotTable ν n} {a : ν} {i : Fin n}
    (hfind : (List.finRange n).find? (fun i => (t i).stops a) = some i) :
    t.FirstLive a ↔ (t i).isLive = true := by
  obtain ⟨hstop, hfirst⟩ := find_finRange_eq_some_iff.mp hfind
  constructor
  · exact fun h => h i hstop hfirst
  · intro hlive j hj hj'
    rcases lt_trichotomy j i with h | h | h
    · exact absurd ((hfirst j h).symm.trans hj) Bool.false_ne_true
    · rw [h]
      exact hlive
    · exact absurd ((hj' i h).symm.trans hstop) Bool.false_ne_true

theorem remove_bag_iff (a : ν) (t : SlotTable ν n) :
    (∃ ret u, t.remove a = some (ret, u) ∧ Bag.remove a t.bag = (ret, u.bag)) ↔ t.FirstLive a := by
  cases hfind : (List.finRange n).find? fun i => (t i).stops a with
  | none =>
    have hnone := find_finRange_eq_none_iff.mp hfind
    have hnot : a ∉ t.bag := by
      rw [mem_bag_iff]
      rintro ⟨i, hi⟩
      exact Bool.false_ne_true ((hnone i).symm.trans (stops_of_live hi))
    refine iff_of_true ⟨0, t, ?_, if_neg hnot⟩ fun i hi => ?_
    · rw [SlotTable.remove, hfind]
    · exact absurd ((hnone i).symm.trans hi) Bool.false_ne_true
  | some i =>
    have hstop := (find_finRange_eq_some_iff.mp hfind).1
    rw [firstLive_iff_of_find hfind, remove_of_find hfind]
    cases hslot : t i with
    | unset =>
      refine iff_of_false ?_ Bool.false_ne_true
      rintro ⟨ret, u, hret, -⟩
      cases hret
    | stale b =>
      refine iff_of_false ?_ Bool.false_ne_true
      rintro ⟨ret, u, hret, hbagged⟩
      rw [if_neg (by simp)] at hret
      obtain ⟨rfl, rfl⟩ := Prod.mk.inj (Option.some.inj hret)
      rw [Bag.remove] at hbagged
      split at hbagged
      · next hmem =>
        -- the bag loses a name and the table does not
        have hcard := congrArg Multiset.card (Prod.mk.inj hbagged).2
        rw [bag_update_of_stale hslot] at hcard
        exact absurd hcard (Multiset.card_erase_lt_of_mem hmem).ne
      · exact absurd (Prod.mk.inj hbagged).1 (by decide)
    | live b =>
      obtain rfl : b = a := by
        rw [hslot] at hstop
        exact of_decide_eq_true hstop
      have hmem : b ∈ t.bag := mem_bag_iff.mpr ⟨i, hslot⟩
      refine iff_of_true ⟨1, _, if_neg (by simp), ?_⟩ rfl
      rw [Bag.remove, if_pos hmem]
      congr 1
      rw [bag_of_live hslot, Multiset.erase_cons_head]

end Remove

/-! ## Filling a table -/

def SlotTable.addAll (names : List ν) (t : SlotTable ν n) : SlotTable ν n :=
  names.foldl (fun t a => (t.add a).2) t

theorem add_first {t : SlotTable ν n} {k : ℕ} (hlive : ∀ i, (t i).isLive = true ↔ i.val < k) (a : ν)
    (j : Fin n) : (t.add a).2 j = if j.val = k then .live a else t j := by
  unfold SlotTable.add
  cases hfind : (List.finRange n).find? fun i => !(t i).isLive with
  | none =>
    have hj := find_finRange_eq_none_iff.mp hfind j
    have hlt := (hlive j).mp (by simpa using hj)
    simp [hlt.ne]
  | some i =>
    obtain ⟨hfree, hfirst⟩ := find_finRange_eq_some_iff.mp hfind
    have hnot : ¬ i.val < k := by
      rw [← hlive]
      simpa using hfree
    have hk : i.val = k := by
      by_contra hne
      have hlt : k < i.val := by omega
      have hbelow := hfirst ⟨k, hlt.trans i.isLt⟩ hlt
      have := (hlive ⟨k, hlt.trans i.isLt⟩).mp (by simpa using hbelow)
      exact lt_irrefl k this
    by_cases hj : j = i
    · subst hj
      simp [hk]
    · have hne : j.val ≠ k := fun h => hj (Fin.ext (h.trans hk.symm))
      simp [Function.update_of_ne hj, hne]

/-- Names added to a table that is filled up to a slot take the slots from there on, while there are
any. -/
theorem addAll_apply (names : List ν) {t : SlotTable ν n} {k : ℕ}
    (hlive : ∀ i, (t i).isLive = true ↔ i.val < k) (i : Fin n) :
    t.addAll names i = if i.val < k then t i else (names[i.val - k]?).elim (t i) .live := by
  induction names generalizing t k with
  | nil => simp [SlotTable.addAll]
  | cons a names ih =>
    have hstep := add_first hlive a
    have hnext : ∀ j, ((t.add a).2 j).isLive = true ↔ j.val < k + 1 := by
      intro j
      rw [hstep]
      by_cases hj : j.val = k
      · simp [hj, Slot.isLive]
      · rw [if_neg hj, hlive j]
        omega
    rw [SlotTable.addAll, List.foldl_cons]
    change SlotTable.addAll names (t.add a).2 i = _
    rw [ih hnext, hstep]
    rcases lt_trichotomy i.val k with h | h | h
    · simp [h, h.ne, Nat.lt_succ_of_lt h]
    · simp [h]
    · have hsub : i.val - k = i.val - (k + 1) + 1 := by omega
      have hne : ¬ i.val = k := h.ne'
      rw [if_neg (by omega), if_neg hne, if_neg (by omega), hsub, List.getElem?_cons_succ]

end VitaConnect.Storage
