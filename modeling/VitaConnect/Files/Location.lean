import VitaConnect.CString.CaseFold
import VitaConnect.CString.Format

/-! # Paths and locations

A path is a string `"dev:/a/b"`, and the slash behind the colon may be missing. Its location is the list of
the device and the names, in lower case: two paths with one location name the same entry. The functions of
`file.c` go from a directory to an entry by joining its name to the path.
-/
namespace VitaConnect.Files
open CString
set_option autoImplicit false

def colon : Byte := 58

def maxPathLength : ℕ := 1024

/-! ## Names -/

structure IsName (name : CStr) : Prop where
  ne_nil : name ≠ []
  slash_notMem : slash ∉ name
  colon_notMem : colon ∉ name
  lowered : lowered name = name

instance (name : CStr) : Decidable (IsName name) :=
  decidable_of_iff (name ≠ [] ∧ slash ∉ name ∧ colon ∉ name ∧ lowered name = name)
    ⟨fun ⟨h, h', h'', h'''⟩ => ⟨h, h', h'', h'''⟩, fun ⟨h, h', h'', h'''⟩ => ⟨h, h', h'', h'''⟩⟩

/-- A name as a location has it. -/
abbrev Name := {name : CStr // IsName name}

abbrev Loc := List Name

def toNames : List CStr → Option Loc
  | [] => some []
  | c :: cs => if h : IsName c then (toNames cs).map (⟨c, h⟩ :: ·) else none

theorem toNames_cons_name (name : Name) (cs : List CStr) :
    toNames (name.1 :: cs) = (toNames cs).map (name :: ·) := dif_pos name.2

theorem toNames_concat (cs : List CStr) (name : Name) :
    toNames (cs ++ [name.1]) = (toNames cs).map (· ++ [name]) := by
  induction cs with
  | nil => exact toNames_cons_name name []
  | cons c cs ih =>
    rw [List.cons_append, toNames, toNames, ih]
    split
    · cases toNames cs <;> rfl
    · rfl

theorem toNames_map_val (names : Loc) : toNames (names.map Subtype.val) = some names := by
  induction names with
  | nil => rfl
  | cons name names ih => rw [List.map_cons, toNames_cons_name, ih, Option.map_some]

/-! ## Components -/

def components (text : CStr) : List CStr := (text.splitOn slash).filter (· ≠ [])

theorem components_nil : components [] = [] := rfl

theorem components_append_slash_cons (a b : CStr) :
    components (a ++ slash :: b) = components a ++ components b := by
  rw [components, List.splitOn_append_cons_self, List.filter_append, components, components]

theorem components_concat_slash (a : CStr) : components (a ++ [slash]) = components a := by
  rw [components_append_slash_cons, components_nil, List.append_nil]

theorem components_singleton {name : CStr} (hne : name ≠ []) (h : slash ∉ name) :
    components name = [name] := by
  rw [components, List.splitOn_eq_singleton h, List.filter_cons_of_pos (by simpa using hne),
    List.filter_nil]

theorem components_name {name : CStr} (h : IsName name) : components name = [name] :=
  components_singleton h.ne_nil h.slash_notMem

/-! ## Locations -/

/-- A path without a device, and one with a component that is no name, lead nowhere. -/
def locate (path : CStr) : Loc :=
  match strchr path colon with
  | some i => (toNames (lowered (path.take i) :: components (lowered (path.drop (i + 1))))).getD []
  | none => []

theorem locate_device (device rest : CStr) (h : colon ∉ device) :
    locate (device ++ colon :: rest) = (toNames (lowered device :: components (lowered rest))).getD [] := by
  rw [locate, strchr_append_cons _ _ _ h]
  dsimp only
  rw [List.take_left, ← List.drop_drop, List.drop_left, List.drop_one, List.tail_cons]

theorem locate_ne_nil {path : CStr} (h : locate path ≠ []) :
    ∃ device rest, path = device ++ colon :: rest ∧ colon ∉ device := by
  by_cases hcolon : colon ∈ path
  · obtain ⟨device, rest, hpath, hdevice⟩ := List.eq_append_cons_of_mem hcolon
    exact ⟨device, rest, hpath, hdevice⟩
  · rw [locate, (strchr_eq_none_iff path colon).mpr hcolon] at h
    exact absurd rfl h

/-! ## Joining -/

def HasEndSlash (path : CStr) : Prop := path.getLast? = some slash

instance (path : CStr) : Decidable (HasEndSlash path) := inferInstanceAs (Decidable (_ = _))

/-- `%s%s%s` -/
def joined (path name : CStr) : CStr := path ++ (if HasEndSlash path then [] else [slash]) ++ name

def newPath (path name : CStr) : CStr := snprintf maxPathLength (joined path name)

theorem newPath_of_fits {path name : CStr} (h : (joined path name).length < maxPathLength) :
    newPath path name = joined path name := snprintf_of_fits h

theorem components_joined_rest (rest : CStr) (name : Name) (sep : CStr)
    (hsep : sep = [slash] ∨ sep = [] ∧ rest.getLast? = some slash) :
    components (lowered (rest ++ sep ++ name.1)) = components (lowered rest) ++ [name.1] := by
  rw [lowered_append, lowered_append, name.2.lowered]
  rcases hsep with rfl | ⟨rfl, hend⟩
  · show components (lowered rest ++ [slash] ++ name.1) = _
    rw [List.append_assoc, List.singleton_append, components_append_slash_cons, components_name name.2]
  · obtain ⟨pre, rfl⟩ := List.getLast?_eq_some_iff.mp hend
    have hlowered : lowered (pre ++ [slash]) = lowered pre ++ [slash] := lowered_append _ _
    rw [hlowered, show lowered [] = [] from rfl, List.append_nil, List.append_assoc,
      List.singleton_append, components_append_slash_cons, components_concat_slash,
      components_name name.2]

theorem locate_joined {path : CStr} (h : locate path ≠ []) (name : Name) :
    locate (joined path name.1) = locate path ++ [name] := by
  obtain ⟨device, rest, rfl, hdevice⟩ := locate_ne_nil h
  set sep : CStr := if HasEndSlash (device ++ colon :: rest) then [] else [slash] with hsep
  have hjoined : joined (device ++ colon :: rest) name.1 = device ++ colon :: (rest ++ sep ++ name.1) := by
    rw [joined, ← hsep, List.append_assoc, List.append_assoc, List.cons_append, List.append_assoc]
  have hcases : sep = [slash] ∨ sep = [] ∧ rest.getLast? = some slash := by
    rw [hsep]
    split
    · next hend =>
      refine Or.inr ⟨rfl, ?_⟩
      unfold HasEndSlash at hend
      cases rest with
      | nil =>
        rw [List.getLast?_concat] at hend
        exact absurd hend (by decide)
      | cons b rest =>
        rwa [List.getLast?_append_cons, List.getLast?_cons_cons] at hend
    · exact Or.inl rfl
  rw [locate_device _ _ hdevice] at h ⊢
  rw [hjoined, locate_device _ _ hdevice, components_joined_rest rest name sep hcases, ← List.cons_append,
    toNames_concat]
  cases hnames : toNames (lowered device :: components (lowered rest)) with
  | none =>
    rw [hnames] at h
    exact absurd rfl h
  | some names => rfl

/-- The path of the entry that `rel` leads to. -/
def under (path : CStr) (rel : Loc) : CStr := rel.foldl (fun path name => joined path name.1) path

theorem joined_length_gt (path : CStr) (name : Name) : path.length < (joined path name.1).length := by
  have hname : name.1.length ≠ 0 := fun h => name.2.ne_nil (List.eq_nil_of_length_eq_zero h)
  rw [joined, List.length_append, List.length_append]
  omega

theorem length_le_under (path : CStr) (rel : Loc) : path.length ≤ (under path rel).length := by
  induction rel generalizing path with
  | nil => exact le_refl _
  | cons name rel ih => exact (joined_length_gt path name).le.trans (ih _)

theorem under_concat (path : CStr) (rel : Loc) (name : Name) :
    under path (rel ++ [name]) = joined (under path rel) name.1 := List.foldl_append

theorem joined_not_endSlash (path : CStr) (name : Name) : ¬ HasEndSlash (joined path name.1) := by
  intro hend
  have hlast : (joined path name.1).getLast? = name.1.getLast? := List.getLast?_append_of_ne_nil _ name.2.ne_nil
  rw [HasEndSlash, hlast] at hend
  exact name.2.slash_notMem (List.mem_of_getLast? hend)

theorem length_under_mono {path path' : CStr} (hle : path.length ≤ path'.length)
    (hend : ¬ HasEndSlash path') (rel : Loc) : (under path rel).length ≤ (under path' rel).length := by
  induction rel generalizing path path' with
  | nil => exact hle
  | cons name rel ih =>
    refine ih ?_ (joined_not_endSlash path' name)
    have hsep : (if HasEndSlash path then [] else [slash] : CStr).length ≤ 1 := by
      split
      · exact Nat.zero_le 1
      · exact le_refl 1
    show (joined path name.1).length ≤ (joined path' name.1).length
    unfold joined
    rw [if_neg hend, List.length_append, List.length_append, List.length_append, List.length_append,
      List.length_singleton]
    omega

/-- Leaving out names at the front does not make a path longer. -/
theorem length_under_suffix (path : CStr) (rel' rel : Loc) :
    (under path rel).length ≤ (under path (rel' ++ rel)).length := by
  cases rel' using List.reverseRecOn with
  | nil => exact le_refl _
  | append_singleton rel' name =>
    have hpath : under path (rel' ++ [name] ++ rel) = under (under path (rel' ++ [name])) rel :=
      List.foldl_append
    rw [hpath]
    refine length_under_mono (length_le_under path _) ?_ rel
    rw [under_concat]
    exact joined_not_endSlash _ name

end VitaConnect.Files
