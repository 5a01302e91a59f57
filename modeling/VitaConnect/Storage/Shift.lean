import VitaConnect.Storage.Mirror

/-! # Shifted trees

`Shifts t p q u u'`: from `u` to `u'` the entries that `t` has at and below `p` have stayed or have gone to
their counterparts below `q`, and nothing else has changed. Merging one directory into another is done
entry by entry; it comes out right when the source and its counterparts are `Separate`.
-/
namespace VitaConnect.Storage
set_option autoImplicit false

variable {ν β : Type} {t u u' u'' : Tree ν β} {p q l : List ν}

/-- No entry at or below `p` has its counterpart there. -/
def Separate (t : Tree ν β) (p q : List ν) : Prop := ∀ rel, t (p ++ rel) ≠ none → ¬ p <+: q ++ rel

theorem Separate.append (h : Separate t p q) (r : List ν) : Separate t (p ++ r) (q ++ r) := by
  intro rel hrel hbegins
  rw [List.append_assoc] at hrel hbegins
  exact h _ hrel ((List.prefix_append p r).trans hbegins)

theorem Separate.not_counterpart (h : Separate t p q) (rel : List ν) : ¬ Counterpart t p q (p ++ rel) := by
  rintro ⟨rel', hrel', heq⟩
  exact h rel' hrel' (heq ▸ List.prefix_append p rel)

theorem Separate.append_ne (h : Separate t p q) {rel : List ν} (hrel : t (p ++ rel) ≠ none) :
    p ++ rel ≠ q ++ rel := fun heq => h rel hrel (heq ▸ List.prefix_append p rel)

theorem Separate.not_source (h : Separate t p q) {rel : List ν} (hrel : t (p ++ rel) ≠ none) :
    ¬ Counterpart t p p (q ++ rel) := fun hsource => h rel hrel hsource.begins

/-! ## One entry -/

structure Shifts (t : Tree ν β) (p q : List ν) (u u' : Tree ν β) : Prop where
  frame : ∀ l, ¬ Counterpart t p p l → ¬ Counterpart t p q l → u' l = u l
  each : ∀ rel e, t (p ++ rel) = some e →
    u' (p ++ rel) = some e ∨ u' (p ++ rel) = none ∧ u' (q ++ rel) = some e

/-- Nothing at or below `p` has gone. -/
theorem shifts_of_frame (hregion : ∀ rel, u' (p ++ rel) = t (p ++ rel))
    (hframe : ∀ l, ¬ Counterpart t p q l → u' l = u l) : Shifts t p q u u' where
  frame l _ hl := hframe l hl
  each rel _ he := Or.inl ((hregion rel).trans he)

theorem Shifts.of_frame (hframe : ∀ l, ¬ Counterpart t p q l → u' l = u l) (h : Shifts t p q u' u'') :
    Shifts t p q u u'' where
  frame l hsource hl := (h.frame l hsource hl).trans (hframe l hl)
  each := h.each

/-- A directory that has been removed behind its entries. -/
theorem Shifts.update [DecidableEq ν] (h : Shifts t p q u u') (hsep : Separate t p q) (hp : t p ≠ none)
    (hq : u' q = t p) (hlook : u'' = Function.update u' p none) : Shifts t p q u u'' where
  frame l hsource hl := by
    have hne : l ≠ p := fun heq => hsource (heq ▸ counterpart_self p hp)
    rw [hlook, Function.update_of_ne hne, h.frame l hsource hl]
  each rel e he := by
    have hne : q ++ rel ≠ p := fun heq =>
      hsep rel (by rw [he]; exact Option.some_ne_none _) (heq ▸ List.prefix_refl p)
    rw [hlook, Function.update_of_ne hne]
    by_cases hrel : rel = []
    · subst hrel
      rw [List.append_nil] at he ⊢
      rw [List.append_nil]
      exact Or.inr ⟨Function.update_self _ _ _, hq.trans he⟩
    · have hbelow : p ++ rel ≠ p := fun heq => hrel (List.append_right_eq_self.mp heq)
      rw [Function.update_of_ne hbelow]
      exact h.each rel e he

theorem FileSystem.Movable.apart {fs : FileSystem ν β} (h : fs.Movable p q) (hp : fs.look p ≠ none) :
    Apart p q := by
  refine ⟨h.not_prefix, ?_⟩
  rintro ⟨r, rfl⟩
  exact fs.exists_above hp h.absent

theorem shifts_of_move [DecidableEq ν] {fs : FileSystem ν β} (h : fs.Movable p q) (hp : fs.look p ≠ none)
    (hregion : ∀ rel, fs.look (p ++ rel) = t (p ++ rel)) : Shifts t p q fs.look (fs.look.move p q) where
  frame l hsource hl := by
    rw [FileSystem.move_apply]
    split
    · next hbegins =>
      obtain ⟨rel, rfl⟩ := hbegins
      rw [List.drop_left, fs.none_below h.absent rel, hregion]
      exact of_not_not fun hrel => hl ⟨rel, hrel, rfl⟩
    · split
      · next hbegins =>
        obtain ⟨rel, rfl⟩ := hbegins
        rw [hregion]
        exact (of_not_not fun hrel => hsource ⟨rel, hrel, rfl⟩).symm
      · rfl
  each rel e he := by
    have hsrc := congrFun (Tree.below_move_src fs.look (h.apart hp)) rel
    have hdst := congrFun (Tree.below_move_dst fs.look p q) rel
    rw [Tree.below_apply] at hsrc
    rw [Tree.below_apply, Tree.below_apply, hregion, he] at hdst
    exact Or.inr ⟨hsrc, hdst⟩

/-! ## Whole moves -/

structure Moved (t : Tree ν β) (p q : List ν) (u : Tree ν β) : Prop where
  gone : ∀ rel, u (p ++ rel) = none
  mirrored : Mirrors t u p q

theorem Moved.separate (h : Moved t p q u) : Separate t p q := by
  rintro rel hrel ⟨r, hr⟩
  have hmirrored := h.mirrored rel hrel
  rw [← hr, h.gone] at hmirrored
  exact hrel hmirrored.symm

theorem Shifts.moved_iff {fs : FileSystem ν β} (h : Shifts t p q u fs.look) :
    Moved t p q fs.look ↔ fs.look p = none := by
  constructor
  · intro hmoved
    have hroot := hmoved.gone []
    rwa [List.append_nil] at hroot
  · intro hgone
    refine ⟨fs.none_below hgone, fun rel hrel => ?_⟩
    obtain ⟨e, he⟩ := Option.ne_none_iff_exists'.mp hrel
    rcases h.each rel e he with hstays | ⟨-, hmoved⟩
    · rw [fs.none_below hgone rel] at hstays
      cases hstays
    · rw [hmoved, he]

/-! ## The entries of a directory -/

structure ShiftsEach (t : Tree ν β) (p q names : List ν) (u u' : Tree ν β) : Prop where
  frame : ∀ l, (∀ n ∈ names, ¬ Counterpart t (p ++ [n]) (p ++ [n]) l ∧
    ¬ Counterpart t (p ++ [n]) (q ++ [n]) l) → u' l = u l
  each : ∀ n ∈ names, ∀ rel e, t (p ++ [n] ++ rel) = some e →
    u' (p ++ [n] ++ rel) = some e ∨ u' (p ++ [n] ++ rel) = none ∧ u' (q ++ [n] ++ rel) = some e

theorem shiftsEach_nil (t u : Tree ν β) (p q : List ν) : ShiftsEach t p q [] u u where
  frame _ _ := rfl
  each _ hn := absurd hn List.not_mem_nil

section Each
variable {names : List ν} (hsep : Separate t p q)

include hsep

/-- The source side of an entry that is not named stays as it is. -/
theorem ShiftsEach.other (h : ShiftsEach t p q names u u') {n : ν} (hn : n ∉ names) (rel : List ν) :
    u' (p ++ [n] ++ rel) = u (p ++ [n] ++ rel) := by
  refine h.frame _ fun m hm => ⟨not_counterpart_sibling ?_ rel, ?_⟩
  · rintro rfl
    exact hn hm
  · rw [List.append_assoc]
    exact fun hcounterpart => hsep.not_counterpart _ hcounterpart.of_child

theorem ShiftsEach.source (h : ShiftsEach t p q names u u') : u' p = u p := by
  refine h.frame p fun n _ => ⟨not_counterpart_above n, fun hcounterpart => ?_⟩
  have hnot := hsep.not_counterpart []
  rw [List.append_nil] at hnot
  exact hnot hcounterpart.of_child

theorem ShiftsEach.counterpart (h : ShiftsEach t p q names u u') (hp : t p ≠ none) : u' q = u q := by
  refine h.frame q fun n _ => ⟨fun hsource => ?_, not_counterpart_above n⟩
  have hnot : ¬ Counterpart t p p (q ++ []) := hsep.not_source (by rwa [List.append_nil])
  rw [List.append_nil] at hnot
  exact hnot hsource.of_child

theorem ShiftsEach.concat (h : ShiftsEach t p q names u u') {n : ν} (hn : n ∉ names)
    (h' : Shifts t (p ++ [n]) (q ++ [n]) u' u'') : ShiftsEach t p q (names ++ [n]) u u'' where
  frame l hl := by
    obtain ⟨hsource, hcounterpart⟩ := hl n (List.mem_append_right _ (List.mem_singleton_self n))
    rw [h'.frame l hsource hcounterpart]
    exact h.frame l fun m hm => hl m (List.mem_append_left _ hm)
  each m hm rel e he := by
    rcases List.mem_append.mp hm with hm | hm
    · have hne : n ≠ m := by
        rintro rfl
        exact hn hm
      have hsource : u'' (p ++ [m] ++ rel) = u' (p ++ [m] ++ rel) := by
        refine h'.frame _ (not_counterpart_sibling hne rel) fun hcounterpart => ?_
        rw [List.append_assoc] at hcounterpart
        exact hsep.not_counterpart _ hcounterpart.of_child
      have hcounterpart : u'' (q ++ [m] ++ rel) = u' (q ++ [m] ++ rel) := by
        refine h'.frame _ (fun hsource => ?_) (not_counterpart_sibling hne rel)
        have hexists : t (p ++ ([m] ++ rel)) ≠ none := by
          rw [← List.append_assoc, he]
          exact Option.some_ne_none _
        rw [List.append_assoc] at hsource
        exact hsep.not_source hexists hsource.of_child
      rw [hsource, hcounterpart]
      exact h.each m hm rel e he
    · rw [List.mem_singleton.mp hm] at he ⊢
      exact h'.each rel e he

/-- The directory stays, and so do the entries in it that are not named. -/
theorem ShiftsEach.shifts (h : ShiftsEach t p q names u u') (hregion : ∀ rel, u (p ++ rel) = t (p ++ rel)) :
    Shifts t p q u u' where
  frame l hsource hl := h.frame l fun _ _ =>
    ⟨fun hchild => hsource hchild.of_child, fun hchild => hl hchild.of_child⟩
  each rel e he := by
    cases rel with
    | nil =>
      rw [List.append_nil] at he ⊢
      have hroot := hregion []
      rw [List.append_nil] at hroot
      exact Or.inl (by rw [h.source hsep, hroot, he])
    | cons n rel =>
      rw [List.append_cons p, List.append_cons q]
      rw [List.append_cons p] at he
      by_cases hn : n ∈ names
      · exact h.each n hn rel e he
      · have hsame := hregion (n :: rel)
        rw [List.append_cons p] at hsame
        exact Or.inl (by rw [h.other hsep hn, hsame, he])

end Each
end VitaConnect.Storage
