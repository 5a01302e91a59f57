import Mathlib.Data.List.Nodup
import Mathlib.Tactic

/-! # Listings

A `Listing` is what a directory lists, in its order: leaves of some kind, and nodes with listings of their
own. `leavesAt d` are the leaves `d` nodes below the listing, each with the names that lead to it.
-/
namespace VitaConnect.Storage
set_option autoImplicit false

inductive Listing (ν κ : Type)
  | done
  | leaf (name : ν) (kind : κ) (rest : Listing ν κ)
  | node (name : ν) (entries rest : Listing ν κ)

namespace Listing
variable {ν κ : Type}

/-- The names lead from node to node to a leaf of the kind. -/
def Has : Listing ν κ → List ν → κ → Prop
  | .done, _, _ => False
  | .leaf name kind rest, path, k => (path = [name] ∧ k = kind) ∨ rest.Has path k
  | .node name entries rest, path, k => (∃ below, path = name :: below ∧ entries.Has below k) ∨ rest.Has path k

def names : Listing ν κ → List ν
  | .done => []
  | .leaf name _ rest => name :: rest.names
  | .node name _ rest => name :: rest.names

/-- Each directory lists each name once. -/
def Distinct : Listing ν κ → Prop
  | .done => True
  | .leaf name _ rest => name ∉ rest.names ∧ rest.Distinct
  | .node name entries rest => name ∉ rest.names ∧ entries.Distinct ∧ rest.Distinct

def leavesAt : ℕ → Listing ν κ → List (List ν × κ)
  | _, .done => []
  | 0, .leaf name kind rest => ([name], kind) :: leavesAt 0 rest
  | d + 1, .leaf _ _ rest => leavesAt (d + 1) rest
  | 0, .node _ _ rest => leavesAt 0 rest
  | d + 1, .node name entries rest =>
    (leavesAt d entries).map (fun e => (name :: e.1, e.2)) ++ leavesAt (d + 1) rest

theorem Has.ne_nil {t : Listing ν κ} {path : List ν} {k : κ} (h : t.Has path k) : path ≠ [] := by
  induction t with
  | done => exact h.elim
  | leaf name kind rest ih =>
    rcases h with ⟨rfl, -⟩ | h
    · simp
    · exact ih h
  | node name entries rest _ ih =>
    rcases h with ⟨below, rfl, -⟩ | h
    · simp
    · exact ih h

theorem mem_leavesAt_iff (t : Listing ν κ) (d : ℕ) (path : List ν) (k : κ) :
    (path, k) ∈ t.leavesAt d ↔ t.Has path k ∧ path.length = d + 1 := by
  induction t generalizing d path k with
  | done => simp [leavesAt, Has]
  | leaf name kind rest ih =>
    cases d with
    | zero =>
      simp only [leavesAt, List.mem_cons, Prod.mk.injEq, ih, Has]
      constructor
      · rintro (⟨rfl, rfl⟩ | ⟨h, hlength⟩)
        · exact ⟨.inl ⟨rfl, rfl⟩, rfl⟩
        · exact ⟨.inr h, hlength⟩
      · rintro ⟨h | h, hlength⟩
        · exact .inl h
        · exact .inr ⟨h, hlength⟩
    | succ d =>
      simp only [leavesAt, ih, Has]
      constructor
      · rintro ⟨h, hlength⟩
        exact ⟨.inr h, hlength⟩
      · rintro ⟨⟨rfl, -⟩ | h, hlength⟩
        · simp at hlength
        · exact ⟨h, hlength⟩
  | node name entries rest ihEntries ihRest =>
    cases d with
    | zero =>
      simp only [leavesAt, ihRest, Has]
      constructor
      · rintro ⟨h, hlength⟩
        exact ⟨.inr h, hlength⟩
      · rintro ⟨⟨below, rfl, h⟩ | h, hlength⟩
        · have hne := h.ne_nil
          rw [List.length_cons, Nat.add_right_cancel_iff, List.length_eq_zero_iff] at hlength
          exact absurd hlength hne
        · exact ⟨h, hlength⟩
    | succ d =>
      simp only [leavesAt, List.mem_append, List.mem_map, Prod.mk.injEq, Prod.exists, ihEntries, ihRest, Has]
      constructor
      · rintro (⟨below, _, ⟨h, hlength⟩, rfl, rfl⟩ | ⟨h, hlength⟩)
        · exact ⟨.inl ⟨below, rfl, h⟩, by rw [List.length_cons, hlength]⟩
        · exact ⟨.inr h, hlength⟩
      · rintro ⟨⟨below, rfl, h⟩ | h, hlength⟩
        · exact .inl ⟨below, k, ⟨h, by simpa using hlength⟩, rfl, rfl⟩
        · exact .inr ⟨h, hlength⟩

theorem head_mem_names {t : Listing ν κ} {name : ν} {below : List ν} {k : κ} (h : t.Has (name :: below) k) :
    name ∈ t.names := by
  induction t with
  | done => exact h.elim
  | leaf other kind rest ih =>
    rcases h with ⟨heq, -⟩ | h
    · rw [(List.cons.inj heq).1]
      exact List.mem_cons_self
    · exact List.mem_cons_of_mem other (ih h)
  | node other entries rest _ ih =>
    rcases h with ⟨below', heq, -⟩ | h
    · rw [(List.cons.inj heq).1]
      exact List.mem_cons_self
    · exact List.mem_cons_of_mem other (ih h)

/-- No path leads to two leaves. -/
theorem Distinct.nodup {t : Listing ν κ} (h : t.Distinct) (d : ℕ) : ((t.leavesAt d).map Prod.fst).Nodup := by
  induction t generalizing d with
  | done => simp [leavesAt]
  | leaf name kind rest ih =>
    obtain ⟨hname, hrest⟩ := h
    cases d with
    | zero =>
      rw [leavesAt, List.map_cons, List.nodup_cons]
      refine ⟨fun hmem => hname ?_, ih hrest 0⟩
      obtain ⟨⟨path, k⟩, he, rfl⟩ := List.mem_map.mp hmem
      exact head_mem_names ((mem_leavesAt_iff rest 0 _ k).mp he).1
    | succ d => exact ih hrest (d + 1)
  | node name entries rest ihEntries ihRest =>
    obtain ⟨hname, hentries, hrest⟩ := h
    cases d with
    | zero => exact ihRest hrest 0
    | succ d =>
      have hbelow : (((entries.leavesAt d).map fun e => (name :: e.1, e.2)).map Prod.fst).Nodup := by
        have hcons := (ihEntries hentries d).map (List.cons_injective (a := name))
        rwa [List.map_map] at hcons ⊢
      rw [leavesAt, List.map_append]
      refine hbelow.append (ihRest hrest (d + 1)) ?_
      intro path hin hout
      obtain ⟨_, he, rfl⟩ := List.mem_map.mp hin
      obtain ⟨below, -, rfl⟩ := List.mem_map.mp he
      obtain ⟨⟨path, k⟩, he', heq⟩ := List.mem_map.mp hout
      obtain rfl : path = name :: below.1 := heq
      exact hname (head_mem_names ((mem_leavesAt_iff rest (d + 1) _ k).mp he').1)

end Listing

end VitaConnect.Storage
