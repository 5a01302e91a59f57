import VitaConnect.Storage.FileSystem

/-! # Mirrored trees

`Mirrors t u p q`: what `t` has at and below `p`, `u` has at and below `q`. `Counterpart t p q l`: the
place `l` is where an entry of `t` at or below `p` is mirrored. A copy from `p` to `q` changes counterparts
only, so copies of two entries of one directory do not meet.
-/
namespace VitaConnect.Storage
set_option autoImplicit false

variable {ν β : Type} {t u u' : Tree ν β} {p q l : List ν}

def Mirrors (t u : Tree ν β) (p q : List ν) : Prop := ∀ rel, t (p ++ rel) ≠ none → u (q ++ rel) = t (p ++ rel)

def Counterpart (t : Tree ν β) (p q l : List ν) : Prop := ∃ rel, t (p ++ rel) ≠ none ∧ l = q ++ rel

/-! ## Mirrors -/

/-- An entry and the entries in it. -/
theorem mirrors_iff : Mirrors t u p q ↔
    (t p ≠ none → u q = t p) ∧ ∀ n, Mirrors t u (p ++ [n]) (q ++ [n]) := by
  constructor
  · intro h
    refine ⟨fun hp => ?_, fun n rel hrel => ?_⟩
    · have hnil := h []
      rw [List.append_nil, List.append_nil] at hnil
      exact hnil hp
    · rw [List.append_assoc] at hrel ⊢
      rw [List.append_assoc]
      exact h _ hrel
  · rintro ⟨hroot, hbelow⟩ rel hrel
    cases rel with
    | nil =>
      rw [List.append_nil] at hrel ⊢
      rw [List.append_nil]
      exact hroot hrel
    | cons n rel =>
      have hchild := hbelow n rel
      rw [List.append_assoc, List.append_assoc] at hchild
      exact hchild hrel

theorem mirrors_of_none (h : ∀ rel, t (p ++ rel) = none) : Mirrors t u p q := fun rel hrel =>
  absurd (h rel) hrel

theorem mirrors_congr (h : ∀ rel, u' (q ++ rel) = u (q ++ rel)) : Mirrors t u' p q ↔ Mirrors t u p q := by
  unfold Mirrors
  simp only [h]

theorem mirrors_congr_left {t' : Tree ν β} (h : ∀ rel, t' (p ++ rel) = t (p ++ rel)) :
    Mirrors t' u p q ↔ Mirrors t u p q := by
  unfold Mirrors
  simp only [h]

/-- A file is mirrored by a file. -/
theorem mirrors_file_iff {fs : FileSystem ν β} {content : β} (h : fs.look p = some (.file content)) :
    Mirrors fs.look u p q ↔ u q = some (.file content) := by
  have hnone (n : ν) : Mirrors fs.look u (p ++ [n]) (q ++ [n]) :=
    mirrors_of_none (fs.none_below (fs.none_below_file h (List.cons_ne_nil n [])))
  rw [mirrors_iff, and_iff_left hnone, h]
  exact ⟨fun hroot => hroot (Option.some_ne_none _), fun hq _ => hq⟩

/-- A directory, the entries in it that are named, and the others. -/
theorem mirrors_dir_iff [DecidableEq ν] {fs : FileSystem ν β} (h : fs.look p = some .dir) (names : List ν) :
    Mirrors fs.look u p q ↔ u q = some .dir ∧
      (∀ n ∈ names, Mirrors fs.look u (p ++ [n]) (q ++ [n])) ∧
      ∀ n ∈ fs.children p, n ∉ names → Mirrors fs.look u (p ++ [n]) (q ++ [n]) := by
  rw [mirrors_iff, h, imp_iff_right (Option.some_ne_none _)]
  refine and_congr_right fun _ => ⟨fun hall => ⟨fun n _ => hall n, fun n _ _ => hall n⟩, ?_⟩
  rintro ⟨hnamed, hother⟩ n
  by_cases hn : n ∈ names
  · exact hnamed n hn
  by_cases hchild : n ∈ fs.children p
  · exact hother n hchild hn
  · rw [FileSystem.mem_children, not_not] at hchild
    exact mirrors_of_none (fs.none_below hchild)

/-! ## Counterparts -/

theorem counterpart_self (q : List ν) (h : t p ≠ none) : Counterpart t p q q :=
  ⟨[], by rwa [List.append_nil], (List.append_nil q).symm⟩

theorem Counterpart.of_child {n : ν} (h : Counterpart t (p ++ [n]) (q ++ [n]) l) : Counterpart t p q l := by
  obtain ⟨rel, hrel, rfl⟩ := h
  exact ⟨n :: rel, by rwa [List.append_cons], List.append_assoc q [n] rel⟩

theorem Counterpart.begins (h : Counterpart t p q l) : q <+: l := by
  obtain ⟨rel, -, rfl⟩ := h
  exact List.prefix_append q rel

theorem not_counterpart_of_apart {s d : List ν} (h : Apart s d) (r rel : List ν) :
    ¬ Counterpart t p (d ++ r) (s ++ rel) := by
  intro hcounterpart
  have hbegins : d <+: s ++ rel := (List.prefix_append d r).trans hcounterpart.begins
  exact h.symm.not_prefix_append rel hbegins

theorem not_counterpart_sibling {n m : ν} (hne : n ≠ m) (rel : List ν) :
    ¬ Counterpart t p (q ++ [n]) (q ++ [m] ++ rel) := by
  intro hcounterpart
  have hbegins := hcounterpart.begins
  rw [List.append_assoc, List.prefix_append_right_inj, List.singleton_append, List.cons_prefix_cons]
    at hbegins
  exact hne hbegins.1

theorem not_counterpart_above (n : ν) : ¬ Counterpart t p (q ++ [n]) q := by
  intro hcounterpart
  have hlength := hcounterpart.begins.length_le
  rw [List.length_append, List.length_singleton] at hlength
  omega

/-! ## Writing -/

/-- From `u` to `u'`, only counterparts of `t` have changed. -/
def Writes (t : Tree ν β) (p q : List ν) (u u' : Tree ν β) : Prop :=
  ∀ l, ¬ Counterpart t p q l → u' l = u l

theorem Writes.refl (t : Tree ν β) (p q : List ν) (u : Tree ν β) : Writes t p q u u := fun _ _ => rfl

theorem Writes.trans {u'' : Tree ν β} (h : Writes t p q u u') (h' : Writes t p q u' u'') :
    Writes t p q u u'' := fun l hl => (h' l hl).trans (h l hl)

theorem Writes.widen {n : ν} (h : Writes t (p ++ [n]) (q ++ [n]) u u') : Writes t p q u u' :=
  fun l hl => h l fun hchild => hl hchild.of_child

/-- Only counterparts of the named entries of a directory have changed. -/
def WritesEach (t : Tree ν β) (p q names : List ν) (u u' : Tree ν β) : Prop :=
  ∀ l, (∀ n ∈ names, ¬ Counterpart t (p ++ [n]) (q ++ [n]) l) → u' l = u l

section Each
variable {names : List ν}

theorem WritesEach.concat {u'' : Tree ν β} {n : ν} (h : WritesEach t p q names u u')
    (h' : Writes t (p ++ [n]) (q ++ [n]) u' u'') : WritesEach t p q (names ++ [n]) u u'' := by
  intro l hl
  rw [h' l (hl n (List.mem_append_right _ (List.mem_singleton_self n)))]
  exact h l fun m hm => hl m (List.mem_append_left _ hm)

theorem WritesEach.writes (h : WritesEach t p q names u u') : Writes t p q u u' := fun l hl =>
  h l fun _ _ hchild => hl hchild.of_child

/-- The mirror of an entry that is not named stays as it is. -/
theorem WritesEach.other (h : WritesEach t p q names u u') {n : ν} (hn : n ∉ names) (rel : List ν) :
    u' (q ++ [n] ++ rel) = u (q ++ [n] ++ rel) := by
  refine h _ fun m hm => not_counterpart_sibling ?_ rel
  rintro rfl
  exact hn hm

theorem WritesEach.above (h : WritesEach t p q names u u') : u' q = u q :=
  h q fun n _ => not_counterpart_above n

end Each

theorem writes_of_update (hp : t p ≠ none) (h : ∀ l, l ≠ q → u' l = u l) : Writes t p q u u' :=
  fun l hl => h l fun heq => hl (heq ▸ counterpart_self q hp)

end VitaConnect.Storage
