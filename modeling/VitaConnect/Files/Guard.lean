import VitaConnect.Files.Location

/-! # The guard of the copying and moving functions

`copyFile`, `copyPath` and `movePath` begin with the same two tests. They compare the strings, so a
destination inside the source is let through when only one of the two paths has a slash behind its colon,
and when the source is a device without it.
-/
namespace VitaConnect.Files
open CString
set_option autoImplicit false

/-! ## The code -/

def errorSrcAndDstIdentical : ℤ := 0xF0020000 - 0x100000000

def errorDstIsSubfolderOfSrc : ℤ := 0xF0020001 - 0x100000000

/-- The two tests at the top, and what they return. A source is not empty. -/
def guard (srcPath dstPath : CStr) : Option ℤ :=
  if strcasecmp srcPath dstPath then some errorSrcAndDstIdentical
  else
    let len := srcPath.length
    if strncasecmp srcPath dstPath len ∧ (dstPath[len]? = some slash ∨ dstPath[len - 1]? = some slash) then
      some errorDstIsSubfolderOfSrc
    else none

/-! ## What the two tests compare -/

/-- Nothing or a slash follows. -/
def Stops (rest : CStr) : Prop := rest = [] ∨ rest.head? = some slash

theorem lower_eq_slash_iff (b : Byte) : lower b = slash ↔ b = slash :=
  lower_eq_iff (by decide) (by decide) b

theorem lowered_getElem? (s : CStr) (i : ℕ) : (lowered s)[i]? = some slash ↔ s[i]? = some slash := by
  rw [lowered, List.getElem?_map, Option.map_eq_some_iff]
  simp only [lower_eq_slash_iff, exists_eq_right]

theorem guard_ne_none_iff {srcPath dstPath : CStr} (hsrc : srcPath ≠ []) :
    guard srcPath dstPath ≠ none ↔ ∃ rest, lowered dstPath = lowered srcPath ++ rest ∧
      (Stops rest ∨ srcPath.getLast? = some slash) := by
  have hpos : 0 < srcPath.length := List.length_pos_iff.mpr hsrc
  have hguard : guard srcPath dstPath ≠ none ↔ lowered srcPath = lowered dstPath ∨
      lowered srcPath <+: lowered dstPath ∧
        (dstPath[srcPath.length]? = some slash ∨ dstPath[srcPath.length - 1]? = some slash) := by
    unfold guard
    dsimp only
    rw [← strcasecmp_iff, ← strncasecmp_length_iff]
    split
    · next h => simp [h]
    · next h =>
      split
      · next h' => simp [h']
      · next h' => simp [h, h']
  have hnext (rest : CStr) (hrest : lowered dstPath = lowered srcPath ++ rest) :
      (dstPath[srcPath.length]? = some slash ↔ rest.head? = some slash) ∧
        (dstPath[srcPath.length - 1]? = some slash ↔ srcPath.getLast? = some slash) := by
    constructor
    · rw [← lowered_getElem?, hrest, List.getElem?_append_right (lowered_length srcPath).le,
        lowered_length, Nat.sub_self, List.head?_eq_getElem?]
    · rw [← lowered_getElem?, hrest, List.getElem?_append_left (by rw [lowered_length]; omega),
        lowered_getElem?, List.getLast?_eq_getElem?]
  rw [hguard]
  constructor
  · rintro (heq | ⟨⟨rest, hrest⟩, hchar⟩)
    · exact ⟨[], by rw [List.append_nil, heq], Or.inl (Or.inl rfl)⟩
    · obtain ⟨hhead, hlast⟩ := hnext rest hrest.symm
      exact ⟨rest, hrest.symm, hchar.imp (fun h => Or.inr (hhead.mp h)) hlast.mp⟩
  · rintro ⟨rest, hrest, (rfl | hhead) | hlast⟩
    · exact Or.inl (by rw [hrest, List.append_nil])
    · exact Or.inr ⟨⟨rest, hrest.symm⟩, Or.inl ((hnext rest hrest).1.mpr hhead)⟩
    · exact Or.inr ⟨⟨rest, hrest.symm⟩, Or.inr ((hnext rest hrest).2.mpr hlast)⟩

/-! ## Names behind slashes -/

def slashed (names : Loc) : CStr := names.flatMap fun name => slash :: name.1

theorem slashed_cons (name : Name) (names : Loc) :
    slashed (name :: names) = slash :: name.1 ++ slashed names := rfl

theorem stops_slashed (names : Loc) : Stops (slashed names) := by
  cases names with
  | nil => exact Or.inl rfl
  | cons name names => exact Or.inr rfl

theorem stops_append {s t : CStr} (hs : Stops s) (ht : Stops t) : Stops (s ++ t) := by
  rcases hs with rfl | hs
  · exact ht
  · refine Or.inr ?_
    rw [List.head?_append, hs, Option.some_or]

/-- A name ends where the text stops. -/
theorem name_append_inj {m n : Name} {s t : CStr} (hs : Stops s) (ht : Stops t)
    (h : m.1 ++ s = n.1 ++ t) : m = n ∧ s = t := by
  have htake (n : Name) (s : CStr) (hs : Stops s) : (n.1 ++ s).takeWhile (· ≠ slash) = n.1 := by
    rw [List.takeWhile_append_of_pos]
    · rcases hs with rfl | hs
      · simp
      · cases s with
        | nil => cases hs
        | cons b s =>
          obtain rfl : b = slash := Option.some.inj hs
          simp
    · intro b hb
      have hne : b ≠ slash := fun hbs => n.2.slash_notMem (hbs ▸ hb)
      simpa using hne
  have hval : m.1 = n.1 := by rw [← htake m s hs, h, htake n t ht]
  rw [hval] at h
  exact ⟨Subtype.ext hval, List.append_cancel_left h⟩

theorem slashed_prefix_iff (a b : Loc) :
    (∃ rest, slashed b = slashed a ++ rest ∧ Stops rest) ↔ a <+: b := by
  induction a generalizing b with
  | nil => exact iff_of_true ⟨slashed b, rfl, stops_slashed b⟩ List.nil_prefix
  | cons m a ih =>
    cases b with
    | nil => simp [slashed]
    | cons n b =>
      rw [List.cons_prefix_cons, ← ih]
      simp only [slashed_cons, List.cons_append, List.append_assoc, List.cons.injEq, true_and]
      constructor
      · rintro ⟨rest, hrest, hstops⟩
        obtain ⟨hname, hrest'⟩ :=
          name_append_inj (stops_slashed b) (stops_append (stops_slashed a) hstops) hrest
        exact ⟨hname.symm, rest, hrest', hstops⟩
      · rintro ⟨rfl, rest, hrest, hstops⟩
        exact ⟨rest, by rw [hrest], hstops⟩

/-! ## Normalised paths -/

/-- What is behind the colon of `"dev:a/b"` and of `"dev:/a/b"`. -/
def bodyOf (rooted : Bool) (names : List CStr) : CStr :=
  (if rooted then [slash] else []) ++ [slash].intercalate names

theorem slash_cons_intercalate (name : Name) (names : Loc) :
    slash :: [slash].intercalate ((name :: names).map Subtype.val) = slashed (name :: names) := by
  induction names generalizing name with
  | nil => simp [slashed, List.intercalate]
  | cons n names ih =>
    rw [slashed_cons, ← ih n, List.map_cons, List.map_cons]
    simp [List.intercalate]

theorem bodyOf_rooted_cons (name : Name) (names : Loc) :
    bodyOf true ((name :: names).map Subtype.val) = slashed (name :: names) :=
  slash_cons_intercalate name names

theorem slash_cons_bodyOf (name : Name) (names : Loc) :
    slash :: bodyOf false ((name :: names).map Subtype.val) = slashed (name :: names) :=
  slash_cons_intercalate name names

/-- Both paths have the slash behind the colon, or both lack it and the source is not a bare device
in front of something else, or the source is a bare device and the destination has it. -/
def SameForm {α : Type} (srcRooted dstRooted : Bool) (src dst : List α) : Prop :=
  if srcRooted then dstRooted = true
  else if dstRooted then src = []
  else src = [] → dst = []

theorem bodyOf_false_ne (names : Loc) (text : CStr) :
    bodyOf false (names.map Subtype.val) ≠ slash :: text := by
  intro h
  cases names with
  | nil => cases h
  | cons name names =>
    have hslashed := slash_cons_bodyOf name names
    rw [h, slashed_cons, List.cons_append, List.cons.injEq] at hslashed
    cases hname : name.1 with
    | nil => exact name.2.ne_nil hname
    | cons b rest =>
      rw [hname, List.cons_append, List.cons.injEq] at hslashed
      apply name.2.slash_notMem
      rw [hname, ← hslashed.2.1]
      exact List.mem_cons_self

theorem bodyOf_false_nil : bodyOf false (List.map Subtype.val ([] : Loc)) = [] := rfl

theorem not_slash_prefix (name : Name) (names : Loc) (rest : CStr) :
    [slash] ≠ slashed (name :: names) ++ rest := by
  intro h
  have hlength := congrArg List.length h
  have hname : 0 < name.1.length := List.length_pos_iff.mpr name.2.ne_nil
  simp only [slashed_cons, List.cons_append, List.length_cons, List.length_append, List.length_nil]
    at hlength
  omega

theorem rooted_prefix_iff (dstRooted : Bool) (src dst : Loc) :
    (∃ rest, bodyOf dstRooted (dst.map Subtype.val) = bodyOf true (src.map Subtype.val) ++ rest ∧
      (Stops rest ∨ src = [])) ↔ src <+: dst ∧ dstRooted = true := by
  cases dstRooted with
  | false =>
    refine iff_of_false ?_ fun h => Bool.false_ne_true h.2
    rintro ⟨rest, hrest, -⟩
    exact bodyOf_false_ne dst _ hrest
  | true =>
    rw [and_iff_left rfl]
    cases src with
    | nil => exact iff_of_true ⟨_, rfl, Or.inr rfl⟩ List.nil_prefix
    | cons m src =>
      simp only [reduceCtorEq, or_false]
      cases dst with
      | nil =>
        refine iff_of_false ?_ (by simp)
        rintro ⟨rest, hrest, -⟩
        rw [bodyOf_rooted_cons] at hrest
        exact not_slash_prefix m src rest hrest
      | cons n dst => rw [bodyOf_rooted_cons, bodyOf_rooted_cons, slashed_prefix_iff]

theorem unrooted_prefix_iff (dstRooted : Bool) (src dst : Loc) :
    (∃ rest, bodyOf dstRooted (dst.map Subtype.val) = bodyOf false (src.map Subtype.val) ++ rest ∧
      Stops rest) ↔ src <+: dst ∧ SameForm false dstRooted src dst := by
  cases src with
  | nil =>
    rw [bodyOf_false_nil]
    simp only [List.nil_append, exists_eq_left', List.nil_prefix, true_and]
    cases dstRooted with
    | true => exact iff_of_true (Or.inr rfl) rfl
    | false =>
      cases dst with
      | nil => exact iff_of_true (Or.inl rfl) fun _ => rfl
      | cons n dst =>
        refine iff_of_false ?_ fun h => List.cons_ne_nil _ _ (h rfl)
        rintro (hnil | hhead)
        · have hslashed := slash_cons_bodyOf n dst
          rw [hnil] at hslashed
          exact not_slash_prefix n dst [] (by rw [List.append_nil, hslashed])
        · obtain ⟨rest, hrest⟩ := List.head?_eq_some_iff.mp hhead
          exact bodyOf_false_ne _ rest hrest
  | cons m src =>
    cases dstRooted with
    | true =>
      refine iff_of_false ?_ fun h => List.cons_ne_nil _ _ h.2
      rintro ⟨rest, hrest, -⟩
      have hslashed := slash_cons_bodyOf m src
      cases hbody : bodyOf false ((m :: src).map Subtype.val) with
      | nil =>
        rw [hbody] at hslashed
        exact not_slash_prefix m src [] (by rw [List.append_nil, hslashed])
      | cons b body =>
        rw [hbody, List.cons_append] at hrest
        obtain rfl : slash = b := (List.cons.inj hrest).1
        exact bodyOf_false_ne _ body hbody
    | false =>
      have hform : SameForm false false (m :: src) dst := fun h => absurd h (List.cons_ne_nil _ _)
      rw [and_iff_left hform]
      cases dst with
      | nil =>
        refine iff_of_false ?_ (by simp)
        rintro ⟨rest, hrest, -⟩
        have hslashed := slash_cons_bodyOf m src
        have hbody := (List.append_eq_nil_iff.mp hrest.symm).1
        rw [hbody] at hslashed
        exact not_slash_prefix m src [] (by rw [List.append_nil, hslashed])
      | cons n dst =>
        rw [← slashed_prefix_iff, ← slash_cons_bodyOf, ← slash_cons_bodyOf]
        simp only [List.cons_append, List.cons.injEq, true_and]

theorem body_prefix_iff (srcRooted dstRooted : Bool) (src dst : Loc) :
    (∃ rest, bodyOf dstRooted (dst.map Subtype.val) = bodyOf srcRooted (src.map Subtype.val) ++ rest ∧
      (Stops rest ∨ srcRooted = true ∧ src = [])) ↔
    src <+: dst ∧ SameForm srcRooted dstRooted src dst := by
  cases srcRooted with
  | true =>
    simp only [true_and]
    exact rooted_prefix_iff dstRooted src dst
  | false =>
    simp only [Bool.false_eq_true, false_and, or_false]
    exact unrooted_prefix_iff dstRooted src dst

/-! ## The guard -/

/-- A component in any mixture of upper and lower case. -/
abbrev Spelled := {name : CStr // IsName (lowered name)}

def Spelled.name (s : Spelled) : Name := ⟨lowered s.1, s.2⟩

/-- `"dev:"`, `"dev:/"`, `"dev:a/b"` or `"dev:/a/b"` -/
structure VitaPath where
  device : Spelled
  rooted : Bool
  names : List Spelled

def VitaPath.text (p : VitaPath) : CStr :=
  p.device.1 ++ colon :: bodyOf p.rooted (p.names.map Subtype.val)

/-- The entry that the path names. -/
def VitaPath.entry (p : VitaPath) : Loc := p.device.name :: p.names.map Spelled.name

theorem lowered_bodyOf (rooted : Bool) (names : List CStr) :
    lowered (bodyOf rooted names) = bodyOf rooted (names.map lowered) := by
  have hsep : lowered [slash] = [slash] := by decide
  have hnames : lowered ([slash].intercalate names) = [slash].intercalate (names.map lowered) := by
    induction names with
    | nil => rfl
    | cons n names ih =>
      cases names with
      | nil => simp [List.intercalate, lowered]
      | cons m names =>
        rw [List.intercalate_cons_cons, List.map_cons, List.map_cons, List.intercalate_cons_cons,
          lowered_append, lowered_append, ih, hsep, List.map_cons]
  rw [bodyOf, bodyOf, lowered_append, hnames]
  cases rooted with
  | false => rfl
  | true => rw [if_pos rfl, hsep]

theorem VitaPath.lowered_text (p : VitaPath) : lowered p.text
    = p.device.name.1 ++ colon :: bodyOf p.rooted ((p.names.map Spelled.name).map Subtype.val) := by
  rw [text, lowered_append, lowered_cons, lowered_bodyOf, List.map_map, List.map_map]
  rfl

theorem slashed_getLast? (name : Name) (names : Loc) :
    (slashed (name :: names)).getLast? ≠ some slash := by
  obtain ⟨init, last, hlast⟩ : ∃ init last, name :: names = init ++ [last] :=
    ⟨_, _, (List.dropLast_append_getLast (List.cons_ne_nil name names)).symm⟩
  obtain ⟨b, rest, hb⟩ := List.exists_cons_of_ne_nil last.2.ne_nil
  have hslashed : slashed (name :: names) = slashed init ++ slash :: last.1 := by
    rw [hlast, slashed, List.flatMap_append]
    simp [slashed]
  rw [hslashed, hb, List.getLast?_append_cons, List.getLast?_cons_cons, ← hb]
  intro h
  exact last.2.slash_notMem (List.mem_of_getLast? h)

theorem lowered_getLast? (s : CStr) : (lowered s).getLast? = some slash ↔ s.getLast? = some slash := by
  rw [lowered, List.getLast?_map, Option.map_eq_some_iff]
  simp only [lower_eq_slash_iff, exists_eq_right]

theorem bodyOf_getLast? (rooted : Bool) (names : Loc) :
    (colon :: bodyOf rooted (names.map Subtype.val)).getLast? = some slash ↔
      rooted = true ∧ names = [] := by
  cases names with
  | nil => cases rooted <;> decide
  | cons n names =>
    refine iff_of_false ?_ fun h => List.cons_ne_nil _ _ h.2
    cases rooted with
    | true =>
      rw [bodyOf_rooted_cons, slashed_cons, List.cons_append, List.getLast?_cons_cons]
      exact slashed_getLast? n names
    | false =>
      have hslashed := slash_cons_bodyOf n names
      have hlast := slashed_getLast? n names
      cases hbody : bodyOf false ((n :: names).map Subtype.val) with
      | nil =>
        rw [hbody] at hslashed
        exact absurd hslashed fun h => not_slash_prefix n names [] (by rw [List.append_nil, h])
      | cons b body =>
        rw [← hslashed, hbody, List.getLast?_cons_cons] at hlast
        rw [List.getLast?_cons_cons]
        exact hlast

theorem VitaPath.text_getLast? (p : VitaPath) :
    p.text.getLast? = some slash ↔ p.rooted = true ∧ p.names = [] := by
  rw [← lowered_getLast?, p.lowered_text, List.getLast?_append_cons, bodyOf_getLast?, List.map_eq_nil_iff]

theorem VitaPath.text_ne_nil (p : VitaPath) : p.text ≠ [] :=
  List.append_ne_nil_of_right_ne_nil _ (List.cons_ne_nil _ _)

theorem colon_notMem (s : Spelled) : colon ∉ s.1 := fun h =>
  s.2.colon_notMem ((mem_lowered_iff (by decide) (by decide) s.1).mpr h)

theorem components_intercalate {names : List CStr} (h : ∀ name ∈ names, IsName name) :
    components ([slash].intercalate names) = names := by
  cases names with
  | nil => rfl
  | cons n names =>
    rw [components, List.splitOn_intercalate _ (fun m hm => (h m hm).slash_notMem) (List.cons_ne_nil _ _),
      List.filter_eq_self.mpr]
    intro m hm
    simpa using (h m hm).ne_nil

theorem components_bodyOf (rooted : Bool) {names : List CStr} (h : ∀ name ∈ names, IsName name) :
    components (bodyOf rooted names) = names := by
  cases rooted with
  | false => exact components_intercalate h
  | true => exact (components_append_slash_cons [] _).trans (components_intercalate h)

theorem VitaPath.locate_text (p : VitaPath) : locate p.text = p.entry := by
  have hnames : ∀ name ∈ p.names.map fun s => lowered s.1, IsName name := by
    intro name hname
    obtain ⟨s, -, rfl⟩ := List.mem_map.mp hname
    exact s.2
  have hentry : lowered p.device.1 :: p.names.map (fun s => lowered s.1) = p.entry.map Subtype.val := by
    rw [entry, List.map_cons, List.map_map]
    rfl
  rw [text, locate_device _ _ (colon_notMem p.device), lowered_bodyOf, List.map_map]
  show (toNames (_ :: components (bodyOf p.rooted (p.names.map fun s => lowered s.1)))).getD [] = _
  rw [components_bodyOf p.rooted hnames]
  exact congrArg (·.getD []) ((congrArg toNames hentry).trans (toNames_map_val p.entry))

theorem append_colon_inj {a b s t : CStr} (ha : colon ∉ a) (hb : colon ∉ b)
    (h : a ++ colon :: s = b ++ colon :: t) : a = b ∧ s = t := by
  have hlength : some a.length = some b.length := by
    rw [← strchr_append_cons a s colon ha, h, strchr_append_cons b t colon hb]
  obtain ⟨hab, htail⟩ := List.append_inj h (Option.some.inj hlength)
  exact ⟨hab, (List.cons.inj htail).2⟩

theorem guard_iff (src dst : VitaPath) : guard src.text dst.text ≠ none ↔
    src.entry <+: dst.entry ∧ SameForm src.rooted dst.rooted src.names dst.names := by
  have hform : SameForm src.rooted dst.rooted src.names dst.names ↔
      SameForm src.rooted dst.rooted (src.names.map Spelled.name) (dst.names.map Spelled.name) := by
    simp only [SameForm, List.map_eq_nil_iff]
  have hnil : src.names = [] ↔ src.names.map Spelled.name = [] := List.map_eq_nil_iff.symm
  rw [guard_ne_none_iff src.text_ne_nil, src.text_getLast?, hform, VitaPath.entry, VitaPath.entry,
    List.cons_prefix_cons, and_assoc, ← body_prefix_iff, hnil, src.lowered_text, dst.lowered_text]
  simp only [List.append_assoc, List.cons_append]
  constructor
  · rintro ⟨rest, htext, hstops⟩
    obtain ⟨hdevice, hbody⟩ :=
      append_colon_inj dst.device.name.2.colon_notMem src.device.name.2.colon_notMem htext
    exact ⟨Subtype.ext hdevice.symm, rest, hbody, hstops⟩
  · rintro ⟨hdevice, rest, hbody, hstops⟩
    exact ⟨rest, by rw [hdevice, hbody], hstops⟩

/-- **The guard.** It rejects exactly the destinations that name the source or an entry inside it, when
the two paths are written in one form. -/
theorem guard_exact_iff (src dst : VitaPath) :
    (guard src.text dst.text ≠ none ↔ locate src.text <+: locate dst.text) ↔
      (src.entry <+: dst.entry → SameForm src.rooted dst.rooted src.names dst.names) := by
  rw [guard_iff, src.locate_text, dst.locate_text, iff_iff_implies_and_implies]
  exact ⟨fun h hinside => (h.2 hinside).2, fun h => ⟨And.left, fun hinside => ⟨hinside, h hinside⟩⟩⟩

/-- A copy of `ux0:` into its own directory `ux0:app` is let through. -/
theorem guard_device : guard (bytes "ux0:") (bytes "ux0:app") = none ∧
    locate (bytes "ux0:") <+: locate (bytes "ux0:app") := by
  decide

end VitaConnect.Files
