import VitaConnect.Refresh.Pass

/-! # Where the content directories are

Seen from outside, a content directory is at home, in a temp path, or accepted by the promoter, and
the pass moves it between these places. `Located` says that an assignment of places is true of a
world; the lemmas below say for each step of the pass which assignment is true behind it.
-/
namespace VitaConnect.Refresh
open CString Program Storage
set_option autoImplicit false

inductive Place
  | home
  | temp (path : Path)
  | accepted
  deriving DecidableEq

def IsTemp (p : Path) : Prop := p = appTemp ∨ p = patchTemp ∨ ∃ titleid, p = psmTemp ++ [titleid]

def IsContent (d : Path) : Prop := ∃ (content : Content) (subdir : CStr), d = content.dir ++ [subdir]

/-- All of `orig` is there; `refreshApp` may have removed or restored `work.bin`. -/
def Whole (orig t : FileSystem) : Prop := ∀ rel, rel ≠ workBin → t rel = orig rel

/-- The directory that was at `d` in `start` is whole in the given place of `w`. -/
def At (start : FileSystem) (w : World) (d : Path) : Place → Prop
  | .home => Whole (start.below d) (w.fs.below d)
  | .temp p => IsTemp p ∧ Whole (start.below d) (w.fs.below p)
  | .accepted => ∃ t ∈ w.accepted, Whole (start.below d) t

def Located (start : FileSystem) (dirs : List Path) (place : Path → Place) (w : World) : Prop :=
  ∀ d ∈ dirs, At start w d (place d)

def Safe (start : FileSystem) (dirs : List Path) (w : World) : Prop :=
  ∀ d ∈ dirs, ∃ place, At start w d place

theorem Located.safe {start : FileSystem} {dirs : List Path} {place : Path → Place} {w : World}
    (h : Located start dirs place w) : Safe start dirs w := fun d hd => ⟨place d, h d hd⟩

/-! ## The paths of the pass are apart -/

theorem apart_temp {p q : Path} (hp : IsTemp p) (hq : IsTemp q) (hne : p ≠ q) : Apart p q := by
  have happ : bytes "app" ≠ bytes "patch" := by decide
  have hgame : bytes "app" ≠ bytes "game" := by decide
  have hpatch : bytes "patch" ≠ bytes "game" := by decide
  rcases hp with rfl | rfl | ⟨s, rfl⟩
  · rcases hq with rfl | rfl | ⟨t, rfl⟩
    · exact absurd rfl hne
    · exact apart_of_ne [ux0, bytes "temp"] [] [] happ
    · exact apart_of_ne [ux0, bytes "temp"] [] [t] hgame
  · rcases hq with rfl | rfl | ⟨t, rfl⟩
    · exact apart_of_ne [ux0, bytes "temp"] [] [] happ.symm
    · exact absurd rfl hne
    · exact apart_of_ne [ux0, bytes "temp"] [] [t] hpatch
  · rcases hq with rfl | rfl | ⟨t, rfl⟩
    · exact apart_of_ne [ux0, bytes "temp"] [s] [] hgame.symm
    · exact apart_of_ne [ux0, bytes "temp"] [s] [] hpatch.symm
    · apply apart_of_ne psmTemp [] []
      rintro rfl
      exact hne rfl

theorem apart_content_temp {d p : Path} (hd : IsContent d) (hp : IsTemp p) : Apart d p := by
  obtain ⟨content, subdir, rfl⟩ := hd
  have htemp : ∃ rest, p = [ux0] ++ bytes "temp" :: rest := by
    rcases hp with rfl | rfl | ⟨t, rfl⟩
    · exact ⟨_, rfl⟩
    · exact ⟨_, rfl⟩
    · exact ⟨_, rfl⟩
  obtain ⟨rest, rfl⟩ := htemp
  cases content with
  | app => exact apart_of_ne [ux0] [subdir] rest (by decide)
  | patch => exact apart_of_ne [ux0] [subdir] rest (by decide)
  | psm => exact apart_of_ne [ux0] [subdir] rest (by decide)

theorem apart_content {d e : Path} (hd : IsContent d) (he : IsContent e) (hne : d ≠ e) : Apart d e := by
  obtain ⟨c, s, rfl⟩ := hd
  obtain ⟨c', s', rfl⟩ := he
  have hdir : ∀ c : Content, ∃ name, c.dir = [ux0, name] := by
    intro c
    cases c <;> exact ⟨_, rfl⟩
  obtain ⟨n, hn⟩ := hdir c
  obtain ⟨n', hn'⟩ := hdir c'
  rw [hn, hn'] at hne ⊢
  by_cases hname : n = n'
  · subst hname
    apply apart_of_ne [ux0, n] [] []
    rintro rfl
    exact hne rfl
  · exact apart_of_ne [ux0] [s] [s'] hname

/-! ## What the steps do to the places -/

def Place.path (d : Path) : Place → Option Path
  | .home => some d
  | .temp p => some p
  | .accepted => none

theorem World.removePath_fs (w : World) (p : Path) (kept : Path → Bool) :
    (w.step (.removePath p kept)).fs
      = w.fs.graft p fun rel => if kept rel then w.fs.below p rel else none := rfl

theorem At.frame {start : FileSystem} {w v : World} {d : Path} {place : Place}
    (h : At start w d place) (haccepted : w.accepted ⊆ v.accepted)
    (hfs : ∀ p, place.path d = some p → v.fs.below p = w.fs.below p) : At start v d place := by
  cases place with
  | home =>
    intro rel hrel
    rw [hfs d rfl]
    exact h rel hrel
  | temp p =>
    refine ⟨h.1, fun rel hrel => ?_⟩
    rw [hfs p rfl]
    exact h.2 rel hrel
  | accepted =>
    obtain ⟨t, ht, hwhole⟩ := h
    exact ⟨t, haccepted ht, hwhole⟩

section Steps
variable {start : FileSystem} {dirs : List Path} {place : Path → Place} {w : World} {p : Path}

theorem Located.apart_temp_path (h : Located start dirs place w) (hdirs : ∀ d ∈ dirs, IsContent d)
    (hp : IsTemp p) {d : Path} (hd : d ∈ dirs) (hne : place d ≠ .temp p) {q : Path}
    (hq : (place d).path d = some q) : Apart p q := by
  have hat := h d hd
  cases hplace : place d with
  | home =>
    rw [hplace] at hq
    obtain rfl := Option.some.inj hq
    exact (apart_content_temp (hdirs d hd) hp).symm
  | temp r =>
    rw [hplace] at hq hat hne
    obtain rfl := Option.some.inj hq
    apply apart_temp hp hat.1
    rintro rfl
    exact hne rfl
  | accepted =>
    rw [hplace] at hq
    cases hq

theorem Located.ne_temp (h : Located start dirs place w) (hexists : ∀ d ∈ dirs, start d ≠ none)
    (hfree : w.fs p = none) {d : Path} (hd : d ∈ dirs) : place d ≠ .temp p := by
  intro hplace
  have hat := h d hd
  rw [hplace] at hat
  have hroot : w.fs p = start d := by
    have hnil := hat.2 [] (by decide)
    rwa [Tree.below_apply, Tree.below_apply, List.append_nil, List.append_nil] at hnil
  exact hexists d hd (hroot.symm.trans hfree)

theorem Located.home_exists (h : Located start dirs place w) (hexists : ∀ d ∈ dirs, start d ≠ none)
    {d : Path} (hd : d ∈ dirs) (hhome : place d = .home) : w.fs d ≠ none := by
  have hat := h d hd
  rw [hhome] at hat
  have hroot : w.fs d = start d := by
    have hnil := hat [] (by decide)
    rwa [Tree.below_apply, Tree.below_apply, List.append_nil] at hnil
  rw [hroot]
  exact hexists d hd

theorem Located.removePath (h : Located start dirs place w) (hdirs : ∀ d ∈ dirs, IsContent d)
    (hp : IsTemp p) {kept : Path → Bool}
    (hkept : (∀ rel, kept rel = true) ∨ ∀ d ∈ dirs, place d ≠ .temp p) :
    Located start dirs place (w.step (.removePath p kept)) := by
  intro d hd
  rcases hkept with hall | hfree
  · have hsame : (w.step (.removePath p kept)).fs = w.fs := by
      simp only [World.removePath_fs, hall, if_true]
      exact w.fs.graft_below_self p
    refine (h d hd).frame (List.Subset.refl _) fun q _ => ?_
    rw [hsame]
  · refine (h d hd).frame (List.Subset.refl _) fun q hq => ?_
    rw [World.removePath_fs]
    exact Tree.below_graft_apart _ _ (h.apart_temp_path hdirs hp hd (hfree d hd) hq)

theorem Located.setWorkBin (h : Located start dirs place w) (hdirs : ∀ d ∈ dirs, IsContent d)
    (hp : IsTemp p) (entry : Option (Entry (List Byte))) :
    Located start dirs place (w.step (.setFile (p ++ workBin) entry)) := by
  intro d hd
  by_cases hplace : place d = .temp p
  · have hat := h d hd
    rw [hplace] at hat ⊢
    refine ⟨hp, fun rel hrel => ?_⟩
    rw [← hat.2 rel hrel]
    exact Tree.below_update_of_ne w.fs entry p hrel
  · refine (h d hd).frame (List.Subset.refl _) fun q hq => ?_
    exact Tree.below_update_apart w.fs entry workBin (h.apart_temp_path hdirs hp hd hplace hq)

def promoted (place : Path → Place) (p : Path) : Path → Place := fun d =>
  if place d = .temp p then .accepted else place d

theorem Located.promote (h : Located start dirs place w) (hdirs : ∀ d ∈ dirs, IsContent d)
    (hp : IsTemp p) (leftover : FileSystem) :
    Located start dirs (promoted place p) (w.step (.promote p leftover)) := by
  intro d hd
  unfold promoted
  split
  · next hplace =>
    have hat := h d hd
    rw [hplace] at hat
    exact ⟨w.fs.below p, List.mem_append_right _ List.mem_cons_self, hat.2⟩
  · next hplace =>
    refine (h d hd).frame (List.subset_append_left _ _) fun q hq => ?_
    exact Tree.below_graft_apart _ _ (h.apart_temp_path hdirs hp hd hplace hq)

theorem Located.rename_other (h : Located start dirs place w) (hdirs : ∀ d ∈ dirs, IsContent d)
    (hp : IsTemp p) {d e : Path} (hd : d ∈ dirs) (he : e ∈ dirs) (hne : e ≠ d)
    (hplace : place e ≠ .temp p) {src dst : Path}
    (hends : (src = d ∧ dst = p) ∨ (src = p ∧ dst = d)) :
    At start (w.step (.sceIoRename src dst)) e (place e) := by
  refine (h e he).frame (List.Subset.refl _) fun q hq => ?_
  have hpq : Apart p q := h.apart_temp_path hdirs hp he hplace hq
  have hdq : Apart d q := by
    have hat := h e he
    cases heq : place e with
    | home =>
      rw [heq] at hq
      obtain rfl := Option.some.inj hq
      exact apart_content (hdirs d hd) (hdirs e he) hne.symm
    | temp r =>
      rw [heq] at hq hat
      obtain rfl := Option.some.inj hq
      exact apart_content_temp (hdirs d hd) hat.1
    | accepted =>
      rw [heq] at hq
      cases hq
  rcases hends with ⟨rfl, rfl⟩ | ⟨rfl, rfl⟩
  · exact Tree.below_move_apart _ hdq hpq
  · exact Tree.below_move_apart _ hpq hdq

theorem Located.toTemp (h : Located start dirs place w) (hdirs : ∀ d ∈ dirs, IsContent d)
    (hp : IsTemp p) {d : Path} (hd : d ∈ dirs) (hhome : place d = .home)
    (hfree : ∀ e ∈ dirs, place e ≠ .temp p) :
    Located start dirs (Function.update place d (.temp p)) (w.step (.sceIoRename d p)) := by
  intro e he
  by_cases hed : e = d
  · subst hed
    have hat := h e he
    rw [hhome] at hat
    rw [Function.update_self]
    refine ⟨hp, fun rel hrel => ?_⟩
    rw [← hat rel hrel]
    exact congrFun (Tree.below_move_dst w.fs e p) rel
  · rw [Function.update_of_ne hed]
    exact h.rename_other hdirs hp hd he hed (hfree e he) (Or.inl ⟨rfl, rfl⟩)

theorem Located.back (h : Located start dirs place w) (hdirs : ∀ d ∈ dirs, IsContent d)
    (hp : IsTemp p) {d : Path} (hd : d ∈ dirs) (htemp : place d = .temp p)
    (hothers : ∀ e ∈ dirs, e ≠ d → place e ≠ .temp p) :
    Located start dirs (Function.update place d .home) (w.step (.sceIoRename p d)) := by
  intro e he
  by_cases hed : e = d
  · subst hed
    have hat := h e he
    rw [htemp] at hat
    rw [Function.update_self]
    intro rel hrel
    rw [← hat.2 rel hrel]
    exact congrFun (Tree.below_move_dst w.fs p e) rel
  · rw [Function.update_of_ne hed]
    exact h.rename_other hdirs hp hd he hed (hothers e he hed) (Or.inr ⟨rfl, rfl⟩)

/-- What an accepted promotion left may be moved to the content path. -/
theorem Located.leftover (h : Located start dirs place w) (hdirs : ∀ d ∈ dirs, IsContent d)
    (hp : IsTemp p) {d : Path} (hd : d ∈ dirs) (hdone : place d = .accepted)
    (hfree : ∀ e ∈ dirs, place e ≠ .temp p) :
    Located start dirs place (w.step (.sceIoRename p d)) := by
  intro e he
  by_cases hed : e = d
  · subst hed
    have hat := h e he
    rw [hdone] at hat ⊢
    exact hat
  · exact h.rename_other hdirs hp hd he hed (hfree e he) (Or.inr ⟨rfl, rfl⟩)

end Steps

end VitaConnect.Refresh
