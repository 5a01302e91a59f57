import VitaConnect.Storage.Tree
import Mathlib.Data.List.Dedup
import Mathlib.Tactic

/-! # File systems

A tree in which every entry lies in a directory, and whose entries are all among the paths of a list. The
empty path is the place of the top entries, a directory that no operation changes. An operation whose
precondition does not hold leaves the file system as it is; under the precondition, a lemma says what the
tree is behind it.
-/
namespace VitaConnect.Storage
set_option autoImplicit false

structure FileSystem (ν β : Type) where
  look : Tree ν β
  locs : List (List ν)
  look_nil : look [] = some .dir
  mem_locs : ∀ l, look l ≠ none → l ∈ locs
  closed : ∀ l n, look (l ++ [n]) ≠ none → look l = some .dir

namespace FileSystem
variable {ν β : Type} [DecidableEq ν]

/-! ## Entries and directories -/

omit [DecidableEq ν] in
/-- Everything above an entry is a directory. -/
theorem dir_above (fs : FileSystem ν β) {l r : List ν} (h : fs.look (l ++ r) ≠ none) (hr : r ≠ []) :
    fs.look l = some .dir := by
  induction r using List.reverseRecOn with
  | nil => exact absurd rfl hr
  | append_singleton r n ih =>
    rw [← List.append_assoc] at h
    have hdir := fs.closed _ n h
    by_cases hnil : r = []
    · rwa [hnil, List.append_nil] at hdir
    · exact ih (by rw [hdir]; exact Option.some_ne_none _) hnil

omit [DecidableEq ν] in
theorem exists_above (fs : FileSystem ν β) {l r : List ν} (h : fs.look (l ++ r) ≠ none) :
    fs.look l ≠ none := by
  cases r with
  | nil => rwa [List.append_nil] at h
  | cons n r =>
    rw [fs.dir_above h (List.cons_ne_nil n r)]
    exact Option.some_ne_none _

omit [DecidableEq ν] in
theorem none_below (fs : FileSystem ν β) {l : List ν} (h : fs.look l = none) (r : List ν) :
    fs.look (l ++ r) = none :=
  of_not_not fun hne => fs.exists_above hne h

omit [DecidableEq ν] in
theorem none_below_file (fs : FileSystem ν β) {l r : List ν} {content : β}
    (h : fs.look l = some (.file content)) (hr : r ≠ []) : fs.look (l ++ r) = none := by
  by_contra hne
  rw [fs.dir_above hne hr] at h
  cases h

/-- The names in a directory, each once. -/
def children (fs : FileSystem ν β) (l : List ν) : List ν :=
  (fs.locs.filterMap fun k => if k.dropLast = l ∧ (fs.look k).isSome then k.getLast? else none).dedup

theorem mem_children {fs : FileSystem ν β} {l : List ν} {n : ν} :
    n ∈ fs.children l ↔ fs.look (l ++ [n]) ≠ none := by
  rw [children, List.mem_dedup, List.mem_filterMap]
  constructor
  · rintro ⟨k, -, hk⟩
    split at hk
    · next h =>
      obtain ⟨pre, rfl⟩ := List.getLast?_eq_some_iff.mp hk
      rw [List.dropLast_concat] at h
      rw [← h.1]
      exact Option.isSome_iff_ne_none.mp h.2
    · cases hk
  · intro h
    refine ⟨l ++ [n], fs.mem_locs _ h, ?_⟩
    rw [if_pos ⟨List.dropLast_concat, Option.isSome_iff_ne_none.mpr h⟩, List.getLast?_concat]

theorem nodup_children (fs : FileSystem ν β) (l : List ν) : (fs.children l).Nodup := List.nodup_dedup _

theorem children_eq_nil_iff {fs : FileSystem ν β} {l : List ν} :
    fs.children l = [] ↔ ∀ n, fs.look (l ++ [n]) = none := by
  rw [List.eq_nil_iff_forall_not_mem]
  simp only [mem_children, ne_eq, not_not]

/-- A directory that looks the same below has the same names, in some order. -/
theorem children_perm {fs fs' : FileSystem ν β} {l : List ν}
    (h : ∀ n, fs'.look (l ++ [n]) = fs.look (l ++ [n])) : (fs'.children l).Perm (fs.children l) := by
  rw [List.perm_ext_iff_of_nodup (nodup_children _ _) (nodup_children _ _)]
  intro n
  rw [mem_children, mem_children, h]

def empty : FileSystem ν β where
  look l := if l = [] then some .dir else none
  locs := [[]]
  look_nil := if_pos rfl
  mem_locs l h := by
    by_cases hl : l = []
    · rw [hl]
      exact List.mem_cons_self
    · exact absurd (if_neg hl) h
  closed l n h := absurd (if_neg (by simp)) h

/-! ## Removing an entry -/

/-- What is removed holds nothing. -/
def erase (fs : FileSystem ν β) (l : List ν) : FileSystem ν β :=
  if h : l ≠ [] ∧ fs.children l = [] then
    { look := Function.update fs.look l none
      locs := fs.locs
      look_nil := by rw [Function.update_of_ne h.1.symm, fs.look_nil]
      mem_locs := fun k hk => by
        by_cases hkl : k = l
        · rw [hkl, Function.update_self] at hk
          exact absurd rfl hk
        · rw [Function.update_of_ne hkl] at hk
          exact fs.mem_locs k hk
      closed := fun k n hk => by
        by_cases hkl : k ++ [n] = l
        · rw [hkl, Function.update_self] at hk
          exact absurd rfl hk
        · rw [Function.update_of_ne hkl] at hk
          have hne : k ≠ l := by
            rintro rfl
            exact hk (children_eq_nil_iff.mp h.2 n)
          rw [Function.update_of_ne hne]
          exact fs.closed k n hk }
  else fs

theorem look_erase {fs : FileSystem ν β} {l : List ν} (hl : l ≠ []) (h : fs.children l = []) :
    (fs.erase l).look = Function.update fs.look l none := by
  rw [erase, dif_pos ⟨hl, h⟩]

/-! ## Putting an entry -/

section Put
variable [DecidableEq β]

/-- The entry comes into a directory, and only a directory replaces what holds something. -/
def put (fs : FileSystem ν β) (l : List ν) (e : Entry β) : FileSystem ν β :=
  if h : l ≠ [] ∧ fs.look l.dropLast = some .dir ∧ (e = .dir ∨ fs.children l = []) then
    { look := Function.update fs.look l (some e)
      locs := l :: fs.locs
      look_nil := by rw [Function.update_of_ne h.1.symm, fs.look_nil]
      mem_locs := fun k hk => by
        by_cases hkl : k = l
        · exact hkl ▸ List.mem_cons_self
        · rw [Function.update_of_ne hkl] at hk
          exact List.mem_cons_of_mem l (fs.mem_locs k hk)
      closed := fun k n hk => by
        by_cases hkl : k ++ [n] = l
        · have hne : k ≠ l := by
            rintro rfl
            simp at hkl
          rw [Function.update_of_ne hne, ← h.2.1, ← hkl, List.dropLast_concat]
        · rw [Function.update_of_ne hkl] at hk
          by_cases hne : k = l
          · subst hne
            rcases h.2.2 with rfl | hchildren
            · exact Function.update_self _ _ _
            · exact absurd (children_eq_nil_iff.mp hchildren n) hk
          · rw [Function.update_of_ne hne]
            exact fs.closed k n hk }
  else fs

theorem look_put {fs : FileSystem ν β} {l : List ν} {e : Entry β} (hl : l ≠ [])
    (hparent : fs.look l.dropLast = some .dir) (h : e = .dir ∨ fs.children l = []) :
    (fs.put l e).look = Function.update fs.look l (some e) := by
  rw [put, dif_pos ⟨hl, hparent, h⟩]

end Put

/-! ## Moving an entry -/

/-- Where a moved entry comes from. -/
theorem move_apply (t : Tree ν β) (src dst l : List ν) : t.move src dst l =
    if dst <+: l then t (src ++ l.drop dst.length) else if src <+: l then none else t l := by
  unfold Tree.move Tree.graft
  split
  · rfl
  · split <;> rfl

/-- The destination is a new place outside the source. -/
structure Movable (fs : FileSystem ν β) (src dst : List ν) : Prop where
  ne_nil : src ≠ []
  dst_ne_nil : dst ≠ []
  not_prefix : ¬ src <+: dst
  absent : fs.look dst = none
  parent : fs.look dst.dropLast = some .dir

instance [DecidableEq β] (fs : FileSystem ν β) (src dst : List ν) : Decidable (fs.Movable src dst) :=
  decidable_of_iff (src ≠ [] ∧ dst ≠ [] ∧ ¬ src <+: dst ∧ fs.look dst = none ∧
    fs.look dst.dropLast = some .dir)
    ⟨fun ⟨h, h', h'', h₃, h₄⟩ => ⟨h, h', h'', h₃, h₄⟩, fun ⟨h, h', h'', h₃, h₄⟩ => ⟨h, h', h'', h₃, h₄⟩⟩

theorem closed_move {fs : FileSystem ν β} {src dst : List ν} (h : fs.Movable src dst) (l : List ν) (n : ν)
    (hl : fs.look.move src dst (l ++ [n]) ≠ none) : fs.look.move src dst l = some .dir := by
  rw [move_apply] at hl ⊢
  by_cases hdst : dst <+: l
  · obtain ⟨r, rfl⟩ := hdst
    rw [if_pos (by rw [List.append_assoc]; exact List.prefix_append _ _), List.append_assoc,
      List.drop_left, ← List.append_assoc] at hl
    rw [if_pos (List.prefix_append _ _), List.drop_left]
    exact fs.closed _ n hl
  · rw [if_neg hdst]
    by_cases hnew : dst <+: l ++ [n]
    · have hparent : l = dst.dropLast := by
        rw [List.prefix_concat_iff] at hnew
        rcases hnew with heq | hbegins
        · rw [heq, List.dropLast_concat]
        · exact absurd hbegins hdst
      rw [if_neg, hparent, h.parent]
      intro hsrc
      exact h.not_prefix (hsrc.trans (hparent ▸ List.dropLast_prefix dst))
    · rw [if_neg hnew] at hl
      split at hl
      · exact absurd rfl hl
      · next hsrc =>
        rw [if_neg fun hbegins => hsrc (hbegins.trans (List.prefix_append l [n]))]
        exact fs.closed l n hl

section Move
variable [DecidableEq β]

def move (fs : FileSystem ν β) (src dst : List ν) : FileSystem ν β :=
  if h : fs.Movable src dst then
    { look := fs.look.move src dst
      locs := fs.locs ++ fs.locs.map fun l => dst ++ l.drop src.length
      look_nil := by
        rw [move_apply, if_neg (by simpa using h.dst_ne_nil), if_neg (by simpa using h.ne_nil), fs.look_nil]
      mem_locs := fun l hl => by
        rw [move_apply] at hl
        split at hl
        · next hdst =>
          obtain ⟨r, rfl⟩ := hdst
          rw [List.drop_left] at hl
          refine List.mem_append_right _ (List.mem_map.mpr ⟨_, fs.mem_locs _ hl, ?_⟩)
          rw [List.drop_left]
        · split at hl
          · exact absurd rfl hl
          · exact List.mem_append_left _ (fs.mem_locs l hl)
      closed := closed_move h }
  else fs

theorem look_move {fs : FileSystem ν β} {src dst : List ν} (h : fs.Movable src dst) :
    (fs.move src dst).look = fs.look.move src dst := by
  rw [move, dif_pos h]

end Move

end FileSystem
end VitaConnect.Storage
