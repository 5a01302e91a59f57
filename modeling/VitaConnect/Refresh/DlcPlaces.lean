import VitaConnect.Refresh.Dlc
import VitaConnect.Refresh.Transaction

/-! # Where the DLC directories are

Each DLC directory has a path of its own in `DLC_TEMP`, so that what the callback does for one directory
leaves the others where they are. The first loop moves a directory from home to its temp path at most;
the second one hands over what is in the temp path, or moves it back.
-/
namespace VitaConnect.Refresh
open CString Program Storage
set_option autoImplicit false

/-! ## Places -/

def dlcHome (title name : CStr) : Path := [ux0, bytes "addcont", title, name]

def dlcAway (name : CStr) : Path := [ux0, bytes "temp", bytes "addcont", name]

inductive DlcPlace
  | home | temp | accepted
  deriving DecidableEq

def DlcPlace.path (title name : CStr) : DlcPlace → Option Path
  | .home => some (dlcHome title name)
  | .temp => some (dlcAway name)
  | .accepted => none

/-- The directory that was at home in `before` is whole in the place, or was accepted since. -/
def DlcAt (before : World) (title name : CStr) (w : World) : DlcPlace → Prop
  | .home => Whole (before.fs.below (dlcHome title name)) (w.fs.below (dlcHome title name))
  | .temp => Whole (before.fs.below (dlcHome title name)) (w.fs.below (dlcAway name))
  | .accepted =>
    ∃ t ∈ w.accepted.drop before.accepted.length, Whole (before.fs.below (dlcHome title name)) t

structure Kept (before : World) (title name : CStr) (w : World) (place : DlcPlace) : Prop where
  grown : before.accepted.length ≤ w.accepted.length
  whole : DlcAt before title name w place

theorem dlcHome_apart_away (title name name' : CStr) : Apart (dlcHome title name) (dlcAway name') :=
  apart_of_ne [ux0] [title, name] [bytes "addcont", name'] (by decide)

theorem dlcHome_apart (title : CStr) {name name' : CStr} (h : name ≠ name') :
    Apart (dlcHome title name) (dlcHome title name') :=
  apart_of_ne [ux0, bytes "addcont", title] [] [] h

theorem dlcAway_apart {name name' : CStr} (h : name ≠ name') : Apart (dlcAway name) (dlcAway name') :=
  apart_of_ne [ux0, bytes "temp", bytes "addcont"] [] [] h

section Steps
variable {before w v : World} {title name m : CStr} {place : DlcPlace}

theorem Kept.frame (h : Kept before title name w place) (haccepted : w.accepted <+: v.accepted)
    (hfs : ∀ p, place.path title name = some p → v.fs.below p = w.fs.below p) :
    Kept before title name v place := by
  refine ⟨h.grown.trans haccepted.length_le, ?_⟩
  have hwhole := h.whole
  cases place with
  | home =>
    intro rel hrel
    rw [hfs _ rfl]
    exact hwhole rel hrel
  | temp =>
    intro rel hrel
    rw [hfs _ rfl]
    exact hwhole rel hrel
  | accepted =>
    obtain ⟨t, ht, hw⟩ := hwhole
    obtain ⟨more, hmore⟩ := haccepted
    refine ⟨t, ?_, hw⟩
    rw [← hmore, List.drop_append_of_le_length h.grown]
    exact List.mem_append_left _ ht

/-- The temp path of `m` is not where the directory is. -/
theorem Kept.apart_away (hplace : m ≠ name ∨ place ≠ .temp) {p : Path}
    (hp : place.path title name = some p) : Apart (dlcAway m) p := by
  cases place with
  | home =>
    obtain rfl := Option.some.inj hp
    exact (dlcHome_apart_away title name m).symm
  | temp =>
    obtain rfl := Option.some.inj hp
    exact dlcAway_apart (hplace.resolve_right fun hne => hne rfl)
  | accepted => cases hp

theorem Kept.apart_home (hplace : m ≠ name) {p : Path} (hp : place.path title name = some p) :
    Apart (dlcHome title m) p := by
  cases place with
  | home =>
    obtain rfl := Option.some.inj hp
    exact dlcHome_apart title hplace
  | temp =>
    obtain rfl := Option.some.inj hp
    exact dlcHome_apart_away title m name
  | accepted => cases hp

theorem Kept.removePath (h : Kept before title name w place) (hplace : m ≠ name ∨ place ≠ .temp)
    (kept : Path → Bool) : Kept before title name (w.step (.removePath (dlcAway m) kept)) place := by
  refine h.frame (List.prefix_refl _) fun p hp => ?_
  rw [World.removePath_fs]
  exact Tree.below_graft_apart _ _ (Kept.apart_away hplace hp)

theorem Kept.setWorkBin (h : Kept before title name w place) (entry : Option (Entry (List Byte))) :
    Kept before title name (w.step (.setFile (dlcAway m ++ workBin) entry)) place := by
  by_cases hplace : m ≠ name ∨ place ≠ .temp
  · refine h.frame (List.prefix_refl _) fun p hp => ?_
    exact Tree.below_update_apart w.fs entry workBin (Kept.apart_away hplace hp)
  · obtain ⟨rfl, rfl⟩ : m = name ∧ place = .temp := by simpa using hplace
    refine ⟨h.grown, fun rel hrel => ?_⟩
    rw [← h.whole rel hrel]
    exact Tree.below_update_of_ne w.fs entry (dlcAway m) hrel

theorem Kept.promote (h : Kept before title name w place) (leftover : FileSystem) :
    ∃ place', Kept before title name (w.step (.promote (dlcAway m) leftover)) place' := by
  by_cases hplace : m ≠ name ∨ place ≠ .temp
  · refine ⟨place, h.frame (List.prefix_append _ _) fun p hp => ?_⟩
    exact Tree.below_graft_apart _ _ (Kept.apart_away hplace hp)
  · obtain ⟨rfl, rfl⟩ : m = name ∧ place = .temp := by simpa using hplace
    refine ⟨.accepted, ?_, w.fs.below (dlcAway m), ?_, h.whole⟩
    · exact h.grown.trans (List.prefix_append _ _).length_le
    · show _ ∈ (w.accepted ++ [w.fs.below (dlcAway m)]).drop before.accepted.length
      rw [List.drop_append_of_le_length h.grown]
      exact List.mem_append_right _ List.mem_cons_self

theorem Kept.move_other (h : Kept before title name w place) (hm : m ≠ name) {src dst : Path}
    (hends : (src = dlcHome title m ∧ dst = dlcAway m) ∨ (src = dlcAway m ∧ dst = dlcHome title m)) :
    Kept before title name (w.step (.sceIoRename src dst)) place := by
  refine h.frame (List.prefix_refl _) fun p hp => ?_
  have haway : Apart (dlcAway m) p := Kept.apart_away (Or.inl hm) hp
  have hhome : Apart (dlcHome title m) p := Kept.apart_home hm hp
  rcases hends with ⟨rfl, rfl⟩ | ⟨rfl, rfl⟩
  · exact Tree.below_move_apart _ hhome haway
  · exact Tree.below_move_apart _ haway hhome

theorem Kept.moveAway (h : Kept before title name w .home) :
    Kept before title name (w.step (.sceIoRename (dlcHome title name) (dlcAway name))) .temp := by
  refine ⟨h.grown, fun rel hrel => ?_⟩
  rw [← h.whole rel hrel]
  exact congrFun (Tree.below_move_dst w.fs (dlcHome title name) (dlcAway name)) rel

/-- A directory at home is in the way of the rename, and one that was accepted stays so. -/
theorem Kept.moveBack (h : Kept before title name w place)
    (hexists : before.fs (dlcHome title name) ≠ none) (hfree : w.fs (dlcHome title name) = none) :
    ∃ place', Kept before title name
      (w.step (.sceIoRename (dlcAway name) (dlcHome title name))) place' := by
  cases place with
  | home =>
    have hroot := h.whole [] (by decide)
    rw [Tree.below_apply, Tree.below_apply, List.append_nil, hfree] at hroot
    exact absurd hroot.symm hexists
  | temp =>
    refine ⟨.home, h.grown, fun rel hrel => ?_⟩
    rw [← h.whole rel hrel]
    exact congrFun (Tree.below_move_dst w.fs (dlcAway name) (dlcHome title name)) rel
  | accepted => exact ⟨.accepted, h.frame (List.prefix_refl _) nofun⟩

end Steps

/-! ## The calls of one DLC -/

section Calls
variable {before : World} {title name m : CStr} {place : DlcPlace} {s : Pass} {a : Answers}

/-- The pass behind the two calls of the first loop. -/
def movedAway (a : Answers) (title m : CStr) (s : Pass) : Pass :=
  let s := s.push (.removePath (dlcAway m) a.removePath)
  if a.renameToTemp ∧ s.world.fs (dlcHome title m) ≠ none ∧ s.world.fs (dlcAway m) = none then
    s.push (.sceIoRename (dlcHome title m) (dlcAway m))
  else s

theorem movedAway_other (h : Kept before title name s.world place) (hm : m ≠ name) :
    Kept before title name (movedAway a title m s).world place := by
  have hremoved : Kept before title name
      (s.push (.removePath (dlcAway m) a.removePath)).world place := by
    rw [Pass.world_push]
    exact h.removePath (Or.inl hm) a.removePath
  unfold movedAway
  dsimp only
  split
  · rw [Pass.world_push]
    exact hremoved.move_other hm (Or.inl ⟨rfl, rfl⟩)
  · exact hremoved

theorem movedAway_own (h : Kept before title name s.world .home) :
    ∃ place, Kept before title name (movedAway a title name s).world place := by
  have hremoved : Kept before title name
      (s.push (.removePath (dlcAway name) a.removePath)).world .home := by
    rw [Pass.world_push]
    exact h.removePath (Or.inr nofun) a.removePath
  unfold movedAway
  dsimp only
  split
  · refine ⟨.temp, ?_⟩
    rw [Pass.world_push]
    exact hremoved.moveAway
  · exact ⟨.home, hremoved⟩

theorem refreshApp_ok {p : Path} {t u : Pass} {res : ℤ} (hprepare : prepareWorkBin a p s = .ok ⟨⟩ t)
    (hpromote : promoteWith a.promoter p t = .ok res u) :
    refreshApp a p s = .ok (if res < 0 then res else 1) u := by
  simp only [refreshApp, promoteApp, bind_apply, hprepare, hpromote, pure_apply]

theorem refreshApp_kept (before : World) (title m : CStr) (a : Answers) (s : Pass) :
    ∃ res t, refreshApp a (dlcAway m) s = .ok res t ∧ ∀ name place,
      Kept before title name s.world place → ∃ place', Kept before title name t.world place' := by
  obtain ⟨u, hprepare, hu⟩ := prepareWorkBin_apply a (dlcAway m) s
  have hprepared : ∀ name place, Kept before title name s.world place →
      Kept before title name u.world place := by
    intro name place h
    rcases hu with rfl | ⟨entry, rfl⟩
    · exact h
    · rw [Pass.world_push]
      exact h.setWorkBin entry
  by_cases haccepts : a.promoter.Accepts
  · obtain ⟨res, hres⟩ := promoteWith_accepted haccepts (dlcAway m) u
    refine ⟨_, _, refreshApp_ok hprepare hres, fun name place h => ?_⟩
    rw [Pass.world_push]
    exact (hprepared name place h).promote a.promoter.leftover
  · obtain ⟨res, -, hres⟩ := promoteWith_refused haccepts (dlcAway m) u
    exact ⟨_, u, refreshApp_ok hprepare hres, fun name place h => ⟨place, hprepared name place h⟩⟩

theorem renameBack_kept (before : World) (title m : CStr) (answer : Bool) (s : Pass) :
    ∃ t, sceIoRename answer (dlcAway m) (dlcHome title m) s = .ok ⟨⟩ t ∧
      ∀ name, before.fs (dlcHome title name) ≠ none → ∀ place,
        Kept before title name s.world place → ∃ place', Kept before title name t.world place' := by
  refine ⟨_, sceIoRename_apply answer _ _ s, fun name hexists place h => ?_⟩
  split
  · next hmove =>
    rw [Pass.world_push]
    by_cases hm : m = name
    · subst hm
      exact h.moveBack hexists hmove.2.2
    · exact ⟨place, h.move_other hm (Or.inr ⟨rfl, rfl⟩)⟩
  · exact ⟨place, h⟩

end Calls

end VitaConnect.Refresh
