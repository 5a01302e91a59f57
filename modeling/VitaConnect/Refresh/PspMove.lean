import VitaConnect.Refresh.PspCalls

/-! # Where `psp_callback` leaves a game

Up to the new signature the game stays at its own path, and only its signature changes. The move, the
promoter and the way back leave it there, or with the promoter, or below `PSP_TEMP`, with the entries that
`removePath` has left.
-/
namespace VitaConnect.Refresh.Psp
open CString Program Storage
set_option autoImplicit false

/-! ## Up to the signature -/

/-- The game has come to `fs'` with another signature, and nothing is in the way of the first rename that
was not there before. -/
structure Resigned (a : PspAnswers) (d : Path) (ids : GameIds) (fs fs' : FileSystem)
    (signature : Option (Entry (List Byte))) : Prop where
  files : ∀ rel, rel ≠ [sceEbootpbp] → fs' (d ++ rel) = fs (d ++ rel)
  signature : fs' (d ++ [sceEbootpbp]) = signature
  target : fs' (target ids) = madeDirs a fs (target ids)

section Stage
variable {start : World} {d : Path} {s : Pass} {fs fs' : FileSystem} {a : PspAnswers} {ids : GameIds}
  {e : Option (Entry (List Byte))}

theorem Resigned.update (h : Resigned a d ids fs fs' e) (hapart : Apart d pspTemp)
    (e' : Option (Entry (List Byte))) :
    Resigned a d ids fs (Function.update fs' (d ++ [sceEbootpbp]) e') e' where
  files rel hrel := by
    rw [Function.update_of_ne (below_ne_signature hrel), h.files rel hrel]
  signature := Function.update_self _ _ _
  target := by
    rw [Function.update_of_ne (below_ne_target hapart [sceEbootpbp] ids).symm, h.target]

theorem Resigned.dir (h : Resigned a d ids fs fs' e) (hdir : fs d = some .dir) : fs' d = some .dir := by
  have hroot := h.files [] (List.cons_ne_nil _ _).symm
  rw [List.append_nil] at hroot
  rw [hroot, hdir]

theorem promoteGame_staged (h : Shows start d s (some d) fs) (hapart : Apart d pspTemp) (a : PspAnswers)
    (ids : GameIds) (cached : ℤ × Option (List Byte)) : ∃ t fs',
      promoteGame a d ids cached s
        = (do let ebootGen ← genSceEbootpbp a d
              ofRefresh (moveGame a d (target ids))
              ofRefresh (restoreSignature a d cached ebootGen) : PspM PUnit) t ∧
      Shows start d t (some d) fs' ∧
      Resigned a d ids fs fs' (removed a.sceIoRemove (fs (d ++ [sceEbootpbp]))) := by
  obtain ⟨t₁, h₁, hshows₁⟩ := makeDirs_shows h a promoteDirs
  obtain ⟨e, t₂, h₂, hshows₂⟩ := prepareLicense_shows hshows₁ a ids.contentid
  obtain ⟨t₃, h₃, hshows₃⟩ := sceIoRemove_shows hshows₂ a.sceIoRemove (d ++ [sceEbootpbp])
  have hstaged : Resigned a d ids fs
      (Function.update (madeDirs a fs) (promoteLicenseRif ids.contentid) e) (fs (d ++ [sceEbootpbp])) := by
    have hbelow (rel : Path) : Function.update (madeDirs a fs) (promoteLicenseRif ids.contentid) e (d ++ rel)
        = fs (d ++ rel) := by
      rw [Function.update_of_ne (below_ne_license hapart rel _), madeDirs,
        foldl_madeDir (below_notMem hapart rel)]
    exact ⟨fun rel _ => hbelow rel, hbelow _, Function.update_of_ne (target_ne_license ids) _ _⟩
  refine ⟨t₃, _, ?_, hshows₃, ?_⟩
  · rw [promoteGame, bind_of_ok (ofRefresh_ok h₁), bind_of_ok (ofRefresh_ok h₂),
      bind_of_ok (ofRefresh_ok h₃)]
    rfl
  · have hsignature := hstaged.signature
    unfold madeDirs at hsignature
    rw [hsignature]
    exact hstaged.update hapart _

end Stage

/-! ## The move, the promoter, and back -/

section Move
variable {start : World} {d : Path} {s : Pass} {fs : FileSystem} {a : PspAnswers} {ids : GameIds}

theorem graft_below (hapart : Apart d pspTemp) (fs u : FileSystem) (rel : Path) :
    fs.graft pspTemp u (d ++ rel) = fs (d ++ rel) :=
  congrFun (Tree.below_graft_apart fs u hapart.symm) rel

/-- The game is at its own path, and nothing is moved there. -/
theorem settle_home (h : Shows start d s (some d) fs) (hapart : Apart d pspTemp) (hdir : fs d = some .dir)
    (a : PspAnswers) (ids : GameIds) (promote : ℤ) : ∃ t fs',
      settle a d (target ids) promote s = .ok ⟨⟩ t ∧
      Shows start d t (some d) fs' ∧ ∀ rel, fs' (d ++ rel) = fs (d ++ rel) := by
  rw [settle, ite_run]
  split
  · exact ⟨_, fs, rfl, h.addRefreshed, fun _ => rfl⟩
  · have hstays : ¬ (a.renameBack = true ∧ s.world.fs (target ids) ≠ none ∧ s.world.fs d = none) := by
      rw [h.fs, hdir]
      exact fun hc => Option.some_ne_none _ hc.2.2
    have hrename := sceIoRename_apply a.renameBack (target ids) d s
    rw [if_neg hstays] at hrename
    exact ⟨_, _, bind_of_ok hrename, h.removePath pspTemp a.removePath, graft_below hapart fs _⟩

/-- The promoter has taken the game. -/
theorem settle_taken (h : Shows start d s none fs) (a : PspAnswers) (ids : GameIds) (promote : ℤ) :
    ∃ t fs', settle a d (target ids) promote s = .ok ⟨⟩ t ∧ Shows start d t none fs' := by
  rw [settle, ite_run]
  split
  · exact ⟨_, fs, rfl, h.addRefreshed⟩
  · have hrename := sceIoRename_apply a.renameBack (target ids) d s
    split at hrename
    · have hpush := h.push (.sceIoRename (target ids) d)
      exact ⟨_, _, bind_of_ok hrename, hpush.removePath pspTemp a.removePath⟩
    · exact ⟨_, _, bind_of_ok hrename, h.removePath pspTemp a.removePath⟩

/-- The game stays at its own path. -/
theorem moveGame_home (h : Shows start d s (some d) fs) (hapart : Apart d pspTemp) (hdir : fs d = some .dir)
    (hstays : ¬ (a.renameToTemp = true ∧ fs (target ids) = none)) : ∃ t fs',
      moveGame a d (target ids) s = .ok ⟨⟩ t ∧
      Shows start d t (some d) fs' ∧ ∀ rel, fs' (d ++ rel) = fs (d ++ rel) := by
  have hrename := sceIoRename_apply a.renameToTemp d (target ids) s
  rw [h.fs, if_neg fun hc => hstays ⟨hc.1, hc.2.2⟩] at hrename
  rw [moveGame, bind_of_ok hrename]
  by_cases haccepts : a.promoter.Accepts
  · obtain ⟨res, hres⟩ := promoteWith_accepted haccepts pspTemp s
    have hpush := h.push (.promote pspTemp a.promoter.leftover)
    have htrack : track (some d) (.promote pspTemp a.promoter.leftover) = some d := by
      simp [track, hapart.2]
    rw [htrack] at hpush
    have hbelow := graft_below hapart fs a.promoter.leftover
    have hdir' : fs.graft pspTemp a.promoter.leftover d = some .dir := by
      have hroot := hbelow []
      rw [List.append_nil] at hroot
      rw [hroot, hdir]
    obtain ⟨t, fs', ht, hshows, hfiles⟩ := settle_home hpush hapart hdir' a ids res
    exact ⟨t, fs', (bind_of_ok hres).trans ht, hshows, fun rel => (hfiles rel).trans (hbelow rel)⟩
  · obtain ⟨res, -, hres⟩ := promoteWith_refused haccepts pspTemp s
    obtain ⟨t, fs', ht, hshows, hfiles⟩ := settle_home h hapart hdir a ids res
    exact ⟨t, fs', (bind_of_ok hres).trans ht, hshows, hfiles⟩

theorem moveGame_moved (h : Shows start d s (some d) fs) (hdir : fs d = some .dir)
    (hmoves : a.renameToTemp = true ∧ fs (target ids) = none) : ∃ t, Shows start d t (some (target ids))
      (fs.move d (target ids)) ∧ moveGame a d (target ids) s
        = (do let promote ← promoteCma a; settle a d (target ids) promote : RefreshM PUnit) t := by
  have hrename := sceIoRename_apply a.renameToTemp d (target ids) s
  rw [h.fs, if_pos ⟨hmoves.1, by rw [hdir]; exact Option.some_ne_none _, hmoves.2⟩] at hrename
  exact ⟨_, h.rename (target ids), bind_of_ok hrename⟩

theorem moveGame_taken (h : Shows start d s (some d) fs) (hdir : fs d = some .dir)
    (hmoves : a.renameToTemp = true ∧ fs (target ids) = none) (haccepts : a.promoter.Accepts) :
    ∃ t fs', moveGame a d (target ids) s = .ok ⟨⟩ t ∧ Shows start d t none fs' := by
  obtain ⟨t, hshows, hrun⟩ := moveGame_moved h hdir hmoves
  obtain ⟨res, hres⟩ := promoteWith_accepted haccepts pspTemp t
  have hpush := hshows.push (.promote pspTemp a.promoter.leftover)
  have htrack : track (some (target ids)) (.promote pspTemp a.promoter.leftover) = none := by
    simp [track, target]
  rw [htrack] at hpush
  obtain ⟨u, fs', hu, hshows'⟩ := settle_taken hpush a ids res
  exact ⟨u, fs', hrun.trans ((bind_of_ok hres).trans hu), hshows'⟩

/-- The game is moved, and the promoter refuses it. -/
theorem moveGame_refused (h : Shows start d s (some d) fs) (hdir : fs d = some .dir)
    (hmoves : a.renameToTemp = true ∧ fs (target ids) = none) (hrefused : ¬ a.promoter.Accepts) :
    ∃ t, Shows start d t (some (target ids)) (fs.move d (target ids)) ∧ moveGame a d (target ids) s
      = (do sceIoRename a.renameBack (target ids) d
            emit (.removePath pspTemp a.removePath) : RefreshM PUnit) t := by
  obtain ⟨t, hshows, hrun⟩ := moveGame_moved h hdir hmoves
  obtain ⟨res, hneg, hres⟩ := promoteWith_refused hrefused pspTemp t
  refine ⟨t, hshows, hrun.trans ((bind_of_ok hres).trans ?_)⟩
  have hzero : res ≠ 0 := by omega
  rw [settle, if_neg hzero]

theorem moveGame_back (h : Shows start d s (some d) fs) (hapart : Apart d pspTemp) (hdir : fs d = some .dir)
    (hmoves : a.renameToTemp = true ∧ fs (target ids) = none) (hrefused : ¬ a.promoter.Accepts)
    (hback : a.renameBack = true) : ∃ t fs', moveGame a d (target ids) s = .ok ⟨⟩ t ∧
      Shows start d t (some d) fs' ∧ ∀ rel, fs' (d ++ rel) = fs (d ++ rel) := by
  obtain ⟨t, hshows, hrun⟩ := moveGame_refused h hdir hmoves hrefused
  have hpaths := apart_target hapart ids
  have hthere : fs.move d (target ids) (target ids) ≠ none := by
    have hroot := congrFun (Tree.below_move_dst fs d (target ids)) []
    rw [Tree.below_apply, Tree.below_apply, List.append_nil, List.append_nil] at hroot
    rw [hroot, hdir]
    exact Option.some_ne_none _
  have hfree : fs.move d (target ids) d = none := by
    have hroot := congrFun (Tree.below_move_src fs hpaths) []
    rw [Tree.below_apply, List.append_nil] at hroot
    exact hroot
  have hrename := sceIoRename_apply a.renameBack (target ids) d t
  rw [hshows.fs, if_pos ⟨hback, hthere, hfree⟩] at hrename
  refine ⟨_, _, hrun.trans (bind_of_ok hrename), (hshows.rename d).removePath pspTemp a.removePath, ?_⟩
  intro rel
  have hreturned : ((fs.move d (target ids)).move (target ids) d).below d rel = fs.below d rel := by
    rw [Tree.below_move_dst, Tree.below_move_dst]
  exact (graft_below hapart _ _ rel).trans hreturned

theorem moveGame_stranded (h : Shows start d s (some d) fs) (hdir : fs d = some .dir)
    (hmoves : a.renameToTemp = true ∧ fs (target ids) = none) (hrefused : ¬ a.promoter.Accepts)
    (hback : ¬ a.renameBack = true) : ∃ t fs', moveGame a d (target ids) s = .ok ⟨⟩ t ∧
      Shows start d t (some (target ids)) fs' ∧ ∀ rel, fs' (target ids ++ rel)
        = if a.removePath (promoteGameFolder ids.discid ++ rel) = true then fs (d ++ rel) else none := by
  obtain ⟨t, hshows, hrun⟩ := moveGame_refused h hdir hmoves hrefused
  have hrename := sceIoRename_apply a.renameBack (target ids) d t
  rw [if_neg fun hc => hback hc.1] at hrename
  refine ⟨_, _, hrun.trans (bind_of_ok hrename), hshows.removePath pspTemp a.removePath, fun rel => ?_⟩
  have hbelow := congrFun (Tree.below_move_dst fs d (target ids)) rel
  rw [Tree.below_apply, Tree.below_apply, target, List.append_assoc] at hbelow
  have hgraft := congrFun (Tree.below_graft_self (fs.move d (target ids))
    (fun rel => if a.removePath rel = true then (fs.move d (target ids)).below pspTemp rel else none) pspTemp)
    (promoteGameFolder ids.discid ++ rel)
  rw [Tree.below_apply, ← List.append_assoc, Tree.below_apply] at hgraft
  refine hgraft.trans ?_
  rw [target, hbelow]

end Move

/-! ## What is left of the game -/

section Kept
variable {start : World} {d : Path} {t : Pass} {fs fs' : FileSystem} {a : PspAnswers} {ids : GameIds}
  {e : Option (Entry (List Byte))}

/-- The old signature is at its path, if there was one. -/
def Preserves (before behind : Option (Entry (List Byte))) : Prop := ∀ e, before = some e → behind = some e

theorem wholeAt_iff {p : Path}
    (hfiles : ∀ rel, rel ≠ [sceEbootpbp] → fs (p ++ rel) = start.fs (d ++ rel)) :
    WholeAt start.fs fs d p ↔
      Preserves (start.fs (d ++ [sceEbootpbp])) (fs (p ++ [sceEbootpbp])) := by
  refine ⟨fun h e => h [sceEbootpbp] e, fun h rel e he => ?_⟩
  by_cases hrel : rel = [sceEbootpbp]
  · subst hrel
    exact h e he
  · rw [hfiles rel hrel, he]

theorem Shows.gameKept_home (h : Shows start d t (some d) fs)
    (hfiles : ∀ rel, rel ≠ [sceEbootpbp] → fs (d ++ rel) = start.fs (d ++ rel)) : GameKept d t ↔
      Preserves (start.fs (d ++ [sceEbootpbp])) (fs (d ++ [sceEbootpbp])) := by
  rw [h.gameKept_iff, ← wholeAt_iff hfiles]
  constructor
  · intro hkept
    exact (hkept d rfl).2
  · intro hwhole q hq
    obtain rfl := Option.some.inj hq
    exact ⟨Or.inl rfl, hwhole⟩

theorem Shows.gameKept_taken (h : Shows start d t none fs) : GameKept d t := by
  rw [h.gameKept_iff]
  intro q hq
  cases hq

/-- `removePath` does not remove an entry of the game. -/
def PspAnswers.Spares (a : PspAnswers) (ids : GameIds) (fs : FileSystem) (d : Path) : Prop :=
  ∀ rel, fs (d ++ rel) ≠ none → a.removePath (promoteGameFolder ids.discid ++ rel) = true

theorem Shows.gameKept_stranded (h : Shows start d t (some (target ids)) fs')
    (hfiles : ∀ rel, rel ≠ [sceEbootpbp] → fs (d ++ rel) = start.fs (d ++ rel))
    (hleft : ∀ rel, fs' (target ids ++ rel)
      = if a.removePath (promoteGameFolder ids.discid ++ rel) = true then fs (d ++ rel) else none) :
    GameKept d t ↔ a.Spares ids start.fs d ∧
      Preserves (start.fs (d ++ [sceEbootpbp])) (fs (d ++ [sceEbootpbp])) := by
  have hunder : pspTemp <+: target ids := List.prefix_append _ _
  rw [h.gameKept_iff, ← wholeAt_iff hfiles]
  constructor
  · intro hkept
    have hentry : ∀ rel e, start.fs (d ++ rel) = some e →
        a.removePath (promoteGameFolder ids.discid ++ rel) = true ∧ fs (d ++ rel) = some e := by
      intro rel e he
      have hwhole := (hkept _ rfl).2 rel e he
      rw [hleft] at hwhole
      by_cases hspared : a.removePath (promoteGameFolder ids.discid ++ rel) = true
      · rw [if_pos hspared] at hwhole
        exact ⟨hspared, hwhole⟩
      · rw [if_neg hspared] at hwhole
        cases hwhole
    refine ⟨fun rel hne => ?_, fun rel e he => (hentry rel e he).2⟩
    obtain ⟨e, he⟩ := Option.ne_none_iff_exists'.mp hne
    exact (hentry rel e he).1
  · rintro ⟨hspares, hwhole⟩ q hq
    obtain rfl := Option.some.inj hq
    refine ⟨Or.inr hunder, fun rel e he => ?_⟩
    rw [hleft, if_pos (hspares rel (by rw [he]; exact Option.some_ne_none e))]
    exact hwhole rel e he

end Kept

end VitaConnect.Refresh.Psp
