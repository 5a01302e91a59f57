import VitaConnect.Storage.FileSystem
import Mathlib.Algebra.BigOperators.Group.List.Basic

/-! # Sums over a tree

`total weight l` adds up the weights of the entry at `l` and of all entries below it. It is the weight of
the entry itself and the totals of what is in it.
-/
namespace VitaConnect.Storage
set_option autoImplicit false

variable {ν β : Type} [DecidableEq ν]

namespace FileSystem

/-- The entries at and below a place, each once. -/
def inside (fs : FileSystem ν β) (l : List ν) : List (List ν) :=
  fs.locs.dedup.filter fun k => l <+: k ∧ (fs.look k).isSome

theorem mem_inside {fs : FileSystem ν β} {l k : List ν} : k ∈ fs.inside l ↔ l <+: k ∧ fs.look k ≠ none := by
  rw [inside, List.mem_filter, List.mem_dedup, decide_eq_true_iff, Option.isSome_iff_ne_none]
  exact ⟨And.right, fun h => ⟨fs.mem_locs k h.2, h⟩⟩

theorem nodup_inside (fs : FileSystem ν β) (l : List ν) : (fs.inside l).Nodup :=
  (List.nodup_dedup _).filter _

theorem inside_perm {fs : FileSystem ν β} {l : List ν} (h : fs.look l ≠ none) :
    (fs.inside l).Perm (l :: (fs.children l).flatMap fun n => fs.inside (l ++ [n])) := by
  have hbelow {n : ν} {k : List ν} (hk : k ∈ fs.inside (l ++ [n])) : l ++ [n] <+: k := (mem_inside.mp hk).1
  refine (List.perm_ext_iff_of_nodup (nodup_inside fs l) (List.nodup_cons.mpr ⟨?_, ?_⟩)).mpr fun k => ?_
  · intro hl
    obtain ⟨n, -, hn⟩ := List.mem_flatMap.mp hl
    have hle := (hbelow hn).length_le
    rw [List.length_append, List.length_singleton] at hle
    omega
  · refine List.nodup_flatMap.mpr ⟨fun n _ => nodup_inside fs _, ?_⟩
    refine (nodup_children fs l).imp fun {n m} hne => ?_
    intro k hn hm
    obtain ⟨r, rfl⟩ := hbelow hn
    have hbegins := hbelow hm
    rw [List.append_assoc, List.prefix_append_right_inj, List.singleton_append, List.cons_prefix_cons]
      at hbegins
    exact hne hbegins.1.symm
  · rw [mem_inside, List.mem_cons, List.mem_flatMap]
    constructor
    · rintro ⟨⟨r, rfl⟩, hk⟩
      cases r with
      | nil => exact Or.inl (List.append_nil l)
      | cons n r =>
        rw [List.append_cons] at hk ⊢
        exact Or.inr ⟨n, mem_children.mpr (fs.exists_above hk), mem_inside.mpr ⟨List.prefix_append _ _, hk⟩⟩
    · rintro (rfl | ⟨n, -, hn⟩)
      · exact ⟨List.prefix_refl k, h⟩
      · obtain ⟨hbegins, hk⟩ := mem_inside.mp hn
        exact ⟨(List.prefix_append l [n]).trans hbegins, hk⟩

def total (fs : FileSystem ν β) (weight : Entry β → ℕ) (l : List ν) : ℕ :=
  ((fs.inside l).map fun k => (fs.look k).elim 0 weight).sum

theorem total_entry {fs : FileSystem ν β} {l : List ν} {e : Entry β} (weight : Entry β → ℕ)
    (h : fs.look l = some e) : fs.total weight l =
      weight e + ((fs.children l).map fun n => fs.total weight (l ++ [n])).sum := by
  have hexists : fs.look l ≠ none := by
    rw [h]
    exact Option.some_ne_none e
  have hperm := inside_perm hexists
  rw [total, (hperm.map _).sum_eq, List.map_cons, List.sum_cons, h, Option.elim_some, List.map_flatMap,
    List.flatMap_def, List.sum_flatten, List.map_map]
  rfl

theorem total_file {fs : FileSystem ν β} {l : List ν} {content : β} (weight : Entry β → ℕ)
    (h : fs.look l = some (.file content)) : fs.total weight l = weight (.file content) := by
  have hchildren : fs.children l = [] :=
    children_eq_nil_iff.mpr fun n => fs.none_below_file h (List.cons_ne_nil n [])
  rw [total_entry weight h, hchildren]
  rfl

theorem total_add (fs : FileSystem ν β) (f g : Entry β → ℕ) (l : List ν) :
    fs.total (fun e => f e + g e) l = fs.total f l + fs.total g l := by
  rw [total, total, total, ← List.sum_map_add]
  refine congrArg List.sum (List.map_congr_left fun k _ => ?_)
  cases fs.look k <;> rfl

theorem total_mul (fs : FileSystem ν β) (f : Entry β → ℕ) (c : ℕ) (l : List ν) :
    fs.total (fun e => f e * c) l = fs.total f l * c := by
  rw [total, total, ← List.sum_map_mul_right]
  refine congrArg List.sum (List.map_congr_left fun k _ => ?_)
  cases fs.look k with
  | none => exact (Nat.zero_mul c).symm
  | some e => rfl

end FileSystem
end VitaConnect.Storage
