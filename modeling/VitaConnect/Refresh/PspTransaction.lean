import VitaConnect.Pbp.ContentId
import VitaConnect.Refresh.PspMove
import VitaConnect.Sfo.Update

/-! # When a game survives `psp_callback`

`finish_kept_iff` has what comes behind the new signature, `signature_kept_iff` has the old signature, and
`promoteGame_kept_iff` puts them together; the callback comes to `promoteGame` or changes nothing.
-/
namespace VitaConnect.Refresh.Psp
open CString Program Storage
set_option autoImplicit false

/-! ## Behind the signature -/

/-- The first rename is done: nothing is at its destination, with the directories that are made. -/
def PspAnswers.Moved (a : PspAnswers) (ids : GameIds) (fs : FileSystem) : Prop :=
  a.renameToTemp = true ∧ madeDirs a fs (target ids) = none

/-- `scePromoterUtilityPromoteImport` takes the game. -/
def PspAnswers.Promoted (a : PspAnswers) (ids : GameIds) (fs : FileSystem) : Prop :=
  a.Moved ids fs ∧ a.promoter.Accepts

/-- A game that the promoter does not get is at its own path in the end. -/
def PspAnswers.AtHome (a : PspAnswers) (ids : GameIds) (fs : FileSystem) : Prop :=
  a.Moved ids fs → a.renameBack = true

instance (a : PspAnswers) (ids : GameIds) (fs : FileSystem) : Decidable (a.Moved ids fs) :=
  inferInstanceAs (Decidable (_ ∧ _))

instance (a : PspAnswers) (ids : GameIds) (fs : FileSystem) : Decidable (a.AtHome ids fs) :=
  inferInstanceAs (Decidable (_ → _))

section Finish
variable {start : World} {d : Path} {s : Pass} {fs fs' : FileSystem} {a : PspAnswers} {ids : GameIds}
  {e : Option (Entry (List Byte))}

theorem finish_home {t : Pass} (hrun : moveGame a d (target ids) s = .ok ⟨⟩ t)
    (h : Shows start d t (some d) fs') (hsigned : Resigned a d ids start.fs fs e)
    (hfiles : ∀ rel, fs' (d ++ rel) = fs (d ++ rel)) (cached : ℤ × Option (List Byte)) (ebootGen : ℤ) :
    ∃ u, (do ofRefresh (moveGame a d (target ids))
             ofRefresh (restoreSignature a d cached ebootGen) : PspM PUnit) s = .ok ⟨⟩ u ∧
      (GameKept d u ↔ Preserves (start.fs (d ++ [sceEbootpbp])) (a.restored cached ebootGen e)) := by
  obtain ⟨u, hu, hshows⟩ := restoreSignature_shows (a := a) h d cached ebootGen
  refine ⟨u, (bind_of_ok (ofRefresh_ok hrun)).trans (ofRefresh_ok hu), ?_⟩
  rw [hshows.gameKept_home, Function.update_self, hfiles, hsigned.signature]
  intro rel hrel
  rw [Function.update_of_ne (below_ne_signature hrel), hfiles, hsigned.files rel hrel]

theorem finish_stranded {t : Pass} (hrun : moveGame a d (target ids) s = .ok ⟨⟩ t)
    (h : Shows start d t (some (target ids)) fs') (hapart : Apart d pspTemp)
    (hsigned : Resigned a d ids start.fs fs e)
    (hleft : ∀ rel, fs' (target ids ++ rel)
      = if a.removePath (promoteGameFolder ids.discid ++ rel) = true then fs (d ++ rel) else none)
    (cached : ℤ × Option (List Byte)) (ebootGen : ℤ) :
    ∃ u, (do ofRefresh (moveGame a d (target ids))
             ofRefresh (restoreSignature a d cached ebootGen) : PspM PUnit) s = .ok ⟨⟩ u ∧
      (GameKept d u ↔ a.Spares ids start.fs d ∧ Preserves (start.fs (d ++ [sceEbootpbp])) e) := by
  obtain ⟨u, hu, hshows⟩ := restoreSignature_shows (a := a) h d cached ebootGen
  refine ⟨u, (bind_of_ok (ofRefresh_ok hrun)).trans (ofRefresh_ok hu), ?_⟩
  rw [hshows.gameKept_stranded hsigned.files, hsigned.signature]
  intro rel
  have hne : target ids ++ rel ≠ d ++ [sceEbootpbp] :=
    (apart_target hapart ids).symm.append_ne rel [sceEbootpbp]
  rw [Function.update_of_ne hne, hleft]

theorem finish_kept_iff (h : Shows start d s (some d) fs) (hapart : Apart d pspTemp)
    (hdir : start.fs d = some .dir) (hsigned : Resigned a d ids start.fs fs e)
    (cached : ℤ × Option (List Byte)) (ebootGen : ℤ) :
    ∃ u, (do ofRefresh (moveGame a d (target ids))
             ofRefresh (restoreSignature a d cached ebootGen) : PspM PUnit) s = .ok ⟨⟩ u ∧
      (GameKept d u ↔ (¬ a.Promoted ids start.fs →
        (a.AtHome ids start.fs ∨ a.Spares ids start.fs d) ∧
          Preserves (start.fs (d ++ [sceEbootpbp]))
            (if a.AtHome ids start.fs then a.restored cached ebootGen e else e))) := by
  have hdir' := hsigned.dir hdir
  by_cases hmoved : a.Moved ids start.fs
  · have hmoves : a.renameToTemp = true ∧ fs (target ids) = none := by
      rw [hsigned.target]
      exact hmoved
    by_cases haccepts : a.promoter.Accepts
    · obtain ⟨t, fs', hrun, hshows⟩ := moveGame_taken h hdir' hmoves haccepts
      obtain ⟨u, hu, hshows'⟩ := restoreSignature_shows (a := a) hshows d cached ebootGen
      refine ⟨u, (bind_of_ok (ofRefresh_ok hrun)).trans (ofRefresh_ok hu), ?_⟩
      exact iff_of_true hshows'.gameKept_taken fun hnot => absurd ⟨hmoved, haccepts⟩ hnot
    · have hnot : ¬ a.Promoted ids start.fs := fun hc => haccepts hc.2
      by_cases hback : a.renameBack = true
      · have hhome : a.AtHome ids start.fs := fun _ => hback
        obtain ⟨t, fs', hrun, hshows, hfiles⟩ := moveGame_back h hapart hdir' hmoves haccepts hback
        obtain ⟨u, hu, hkept⟩ := finish_home hrun hshows hsigned hfiles cached ebootGen
        refine ⟨u, hu, ?_⟩
        rw [hkept, if_pos hhome, forall_prop_of_true hnot, and_iff_right (Or.inl hhome)]
      · have hhome : ¬ a.AtHome ids start.fs := fun hc => hback (hc hmoved)
        obtain ⟨t, fs', hrun, hshows, hleft⟩ := moveGame_stranded h hdir' hmoves haccepts hback
        obtain ⟨u, hu, hkept⟩ := finish_stranded hrun hshows hapart hsigned hleft cached ebootGen
        refine ⟨u, hu, ?_⟩
        rw [hkept, if_neg hhome, forall_prop_of_true hnot, or_iff_right hhome]
  · have hnot : ¬ a.Promoted ids start.fs := fun hc => hmoved hc.1
    have hhome : a.AtHome ids start.fs := fun hc => absurd hc hmoved
    have hstays : ¬ (a.renameToTemp = true ∧ fs (target ids) = none) := by
      rw [hsigned.target]
      exact hmoved
    obtain ⟨t, fs', hrun, hshows, hfiles⟩ := moveGame_home h hapart hdir' hstays
    obtain ⟨u, hu, hkept⟩ := finish_home hrun hshows hsigned hfiles cached ebootGen
    refine ⟨u, hu, ?_⟩
    rw [hkept, if_pos hhome, forall_prop_of_true hnot, and_iff_right (Or.inl hhome)]

end Finish

/-! ## When the old signature is there -/

/-- Some of the old signature has been read. -/
def CacheAnswers.Reads (r : CacheAnswers) (old : List Byte) : Prop :=
  0 ≤ r.sceIoOpen ∧ r.malloc = true ∧ 0 < r.sceIoRead ∧ old ≠ []

/-- What `gen_sce_ebootpbp` answers for a signature that can be removed. -/
def PspAnswers.ebootGen (a : PspAnswers) : ℤ :=
  if a.Signs then (if a.gen.write.sceIoOpen < 0 then a.gen.write.sceIoOpen else a.gen.write.sceIoWrite)
  else a.unsigned

/-- A new signature is stored, as far as `sceIoWrite` takes it. -/
def PspAnswers.Generates (a : PspAnswers) : Prop := a.Signs ∧ 0 ≤ a.gen.write.sceIoOpen

def PspAnswers.WritesBack (a : PspAnswers) (old : List Byte) : Prop :=
  a.ebootGen < 0 ∧ a.cache.Reads old ∧ 0 ≤ a.restore.sceIoOpen

instance (r : CacheAnswers) (old : List Byte) : Decidable (r.Reads old) :=
  inferInstanceAs (Decidable (_ ∧ _ ∧ _ ∧ _))

instance (a : PspAnswers) : Decidable a.Generates := inferInstanceAs (Decidable (_ ∧ _))

instance (a : PspAnswers) (old : List Byte) : Decidable (a.WritesBack old) :=
  inferInstanceAs (Decidable (_ ∧ _ ∧ _))

/-- The signature `old` is there in the end. -/
structure PspAnswers.SignatureKept (a : PspAnswers) (ids : GameIds) (fs : FileSystem) (old : List Byte) :
    Prop where
  back : a.AtHome ids fs → a.WritesBack old →
    old.length ≤ a.cache.sceIoRead ∧ old.length ≤ a.restore.sceIoWrite
  new : ¬ (a.AtHome ids fs ∧ a.WritesBack old) → a.Generates →
    a.signature.take a.gen.write.sceIoWrite.toNat = old
  left : ¬ (a.AtHome ids fs ∧ a.WritesBack old) → ¬ a.Generates → a.sceIoRemove < 0

section Signature
variable {a : PspAnswers} {old : List Byte} {x : Option (Entry (List Byte))}

theorem opens_iff {w : WriteAnswers} (hx : x ≠ some .dir) : w.Opens x ↔ 0 ≤ w.sceIoOpen := and_iff_left hx

theorem some_file_ne_dir (old : List Byte) : some (.file old) ≠ some (Entry.dir : Entry (List Byte)) := by
  intro h
  cases h

theorem removed_ne_dir (answer : ℤ) (old : List Byte) : removed answer (some (.file old)) ≠ some .dir := by
  rw [removed]
  split
  · exact (Option.some_ne_none _).symm
  · exact some_file_ne_dir old

theorem genRet_eq (hx : x ≠ some .dir) : a.genRet x = a.ebootGen := by
  have hopens := opens_iff (w := a.gen.write) hx
  rw [PspAnswers.genRet, PspAnswers.ebootGen, WriteAnswers.ret]
  by_cases hopen : a.gen.write.sceIoOpen < 0
  · rw [if_neg fun hc => absurd (hopens.mp hc) (not_le.mpr hopen), if_pos hopen,
      if_pos hopen]
  · rw [if_pos (hopens.mpr (not_lt.mp hopen)), if_neg hopen]

theorem genBehind_eq (hx : x ≠ some .dir) : a.genBehind x =
    if a.Generates then some (.file (a.signature.take a.gen.write.sceIoWrite.toNat)) else x := by
  simp only [PspAnswers.genBehind, PspAnswers.Generates, WriteAnswers.behind, opens_iff hx]
  by_cases hsigns : a.Signs
  · simp only [hsigns, if_true, true_and]
  · simp only [hsigns, if_false, false_and]

theorem cached_reads (r : CacheAnswers) (old : List Byte) :
    0 < (allocateReadFile (r.answers (some (.file old)))).1 ↔ r.Reads old := by
  have hlength : 0 < (old.take r.sceIoRead.toNat).length ↔ 0 < r.sceIoRead ∧ old ≠ [] := by
    rw [List.length_take, ← List.length_pos_iff_ne_nil]
    omega
  simp only [allocateReadFile, CacheAnswers.answers, CacheAnswers.Reads]
  by_cases hopen : r.sceIoOpen < 0
  · simp only [hopen, if_true, not_le.mpr hopen, false_and, iff_false]
    omega
  · simp only [hopen, if_false, not_lt.mp hopen, true_and]
    cases hmalloc : r.malloc with
    | false =>
      simp only [Bool.false_eq_true, if_false, false_and, iff_false]
      decide
    | true =>
      simp only [if_true, true_and]
      by_cases hread : r.sceIoRead < 0
      · simp only [hread, if_true]
        omega
      · simp only [hread, if_false, ← hlength]
        omega

theorem cached_data {r : CacheAnswers} (h : r.Reads old) :
    (allocateReadFile (r.answers (some (.file old)))).2 = some (old.take r.sceIoRead.toNat) := by
  have hopen : ¬ r.sceIoOpen < 0 := not_lt.mpr h.1
  simp only [allocateReadFile, CacheAnswers.answers, if_neg hopen, h.2.1, if_true]

theorem restored_eq (hx : x ≠ some .dir) :
    a.restored (allocateReadFile (a.cache.answers (some (.file old)))) a.ebootGen x =
      if a.WritesBack old then
        some (.file ((old.take a.cache.sceIoRead.toNat).take a.restore.sceIoWrite.toNat))
      else x := by
  simp only [PspAnswers.restored, cached_reads, WriteAnswers.behind, opens_iff hx]
  by_cases hreads : a.ebootGen < 0 ∧ a.cache.Reads old
  · have hiff : a.WritesBack old ↔ 0 ≤ a.restore.sceIoOpen :=
      ⟨fun hback => hback.2.2, fun hopen => ⟨hreads.1, hreads.2, hopen⟩⟩
    rw [if_pos hreads, cached_data hreads.2, Option.getD_some]
    simp only [hiff]
  · have hnot : ¬ a.WritesBack old := fun hback => hreads ⟨hback.1, hback.2.1⟩
    rw [if_neg hreads, if_neg hnot]

theorem take_take_eq_self_iff {r w : ℤ} (hne : old ≠ []) :
    (old.take r.toNat).take w.toNat = old ↔ old.length ≤ r ∧ old.length ≤ w := by
  have hpos := List.length_pos_iff_ne_nil.mpr hne
  rw [List.take_take, List.take_eq_self_iff]
  omega

theorem removed_kept_iff (answer : ℤ) (old : List Byte) :
    removed answer (some (.file old)) = some (.file old) ↔ answer < 0 := by
  rw [removed]
  split
  · next h => exact iff_of_false (Option.some_ne_none _).symm (not_lt.mpr h)
  · next h => exact iff_of_true rfl (not_le.mp h)

theorem some_file_inj {old new : List Byte} :
    (some (.file new) : Option (Entry (List Byte))) = some (.file old) ↔ new = old := by
  rw [Option.some_inj, Entry.file.injEq]

/-- What is at the path of the signature behind the whole callback, unless the promoter has the game. -/
def PspAnswers.signatureBehind (a : PspAnswers) (ids : GameIds) (fs : FileSystem)
    (before : Option (Entry (List Byte))) : Option (Entry (List Byte)) :=
  if a.AtHome ids fs then
    a.restored (allocateReadFile (a.cache.answers before)) (a.genRet (removed a.sceIoRemove before))
      (a.genBehind (removed a.sceIoRemove before))
  else a.genBehind (removed a.sceIoRemove before)

theorem signature_kept_iff (a : PspAnswers) (ids : GameIds) (fs : FileSystem) (old : List Byte) :
    a.signatureBehind ids fs (some (.file old)) = some (.file old) ↔ a.SignatureKept ids fs old := by
  rw [PspAnswers.signatureBehind]
  set x := removed a.sceIoRemove (some (.file old)) with hx
  have hdir : x ≠ some .dir := removed_ne_dir _ _
  have hbehind : a.genBehind x ≠ some .dir := by
    rw [genBehind_eq hdir]
    split
    · exact some_file_ne_dir _
    · exact hdir
  have hgen : a.genBehind x = some (.file old) ↔
      if a.Generates then a.signature.take a.gen.write.sceIoWrite.toNat = old else a.sceIoRemove < 0 := by
    rw [genBehind_eq hdir]
    split
    · exact some_file_inj
    · exact removed_kept_iff _ _
  have hnew (hnot : ¬ (a.AtHome ids fs ∧ a.WritesBack old)) :
      a.genBehind x = some (.file old) ↔ a.SignatureKept ids fs old := by
    rw [hgen]
    split
    · next hgenerates =>
      refine ⟨fun h => ⟨fun hhome hback => ?_, fun _ _ => h, fun _ hc => ?_⟩,
        fun h => h.new hnot hgenerates⟩
      · exact absurd ⟨hhome, hback⟩ hnot
      · exact absurd hgenerates hc
    · next hgenerates =>
      refine ⟨fun h => ⟨fun hhome hback => ?_, fun _ hc => ?_, fun _ _ => h⟩,
        fun h => h.left hnot hgenerates⟩
      · exact absurd ⟨hhome, hback⟩ hnot
      · exact absurd hc hgenerates
  rw [genRet_eq hdir, restored_eq hbehind]
  by_cases hhome : a.AtHome ids fs
  · rw [if_pos hhome]
    by_cases hback : a.WritesBack old
    · rw [if_pos hback, some_file_inj, take_take_eq_self_iff hback.2.1.2.2.2]
      refine ⟨fun h => ⟨fun _ _ => h, fun hnot => ?_, fun hnot => ?_⟩, fun h => h.back hhome hback⟩
      · exact absurd ⟨hhome, hback⟩ hnot
      · exact absurd ⟨hhome, hback⟩ hnot
    · rw [if_neg hback, hnew fun hc => hback hc.2]
  · rw [if_neg hhome, hnew fun hc => hhome hc.1]

theorem genBehind_dir (a : PspAnswers) : a.genBehind (some .dir) = some .dir := by
  have hopens : ¬ a.gen.write.Opens (some .dir) := fun hc => hc.2 rfl
  rw [PspAnswers.genBehind, WriteAnswers.behind, if_neg hopens, ite_self]

theorem restored_dir (a : PspAnswers) (cached : ℤ × Option (List Byte)) (ebootGen : ℤ) :
    a.restored cached ebootGen (some .dir) = some .dir := by
  have hopens : ¬ a.restore.Opens (some .dir) := fun hc => hc.2 rfl
  rw [PspAnswers.restored, WriteAnswers.behind, if_neg hopens, ite_self]

/-- Preserving what was at a path is a condition on files alone. -/
theorem preserves_iff_of_file {f : Option (Entry (List Byte)) → Option (Entry (List Byte))}
    {P : List Byte → Prop} (hdir : f (some .dir) = some .dir)
    (hfile : ∀ old, f (some (.file old)) = some (.file old) ↔ P old) (before : Option (Entry (List Byte))) :
    Preserves before (f before) ↔ ∀ old, before = some (.file old) → P old := by
  constructor
  · rintro h old rfl
    exact (hfile old).mp (h _ rfl)
  · rintro h e rfl
    cases e with
    | dir => exact hdir
    | file old => exact (hfile old).mpr (h old rfl)

theorem removed_preserves_iff (answer : ℤ) (before : Option (Entry (List Byte))) :
    Preserves before (removed answer before) ↔ ∀ old, before = some (.file old) → answer < 0 :=
  preserves_iff_of_file rfl (removed_kept_iff answer) before

theorem preserves_iff (a : PspAnswers) (ids : GameIds) (fs : FileSystem)
    (before : Option (Entry (List Byte))) : Preserves before (a.signatureBehind ids fs before) ↔
    ∀ old, before = some (.file old) → a.SignatureKept ids fs old := by
  refine preserves_iff_of_file ?_ (signature_kept_iff a ids fs) before
  have hremoved : removed a.sceIoRemove (some .dir) = some .dir := rfl
  rw [PspAnswers.signatureBehind, hremoved, genBehind_dir, restored_dir, ite_self]

end Signature

/-! ## The callback -/

/-- The condition on the answers of a run that comes to the promotion of the game `d` of `fs`. -/
structure PspAnswers.Keeps (a : PspAnswers) (ids : GameIds) (fs : FileSystem) (d : Path) : Prop where
  faulting : a.GenFaults → ∀ old, fs (d ++ [sceEbootpbp]) = some (.file old) → a.sceIoRemove < 0
  game : ¬ a.GenFaults → ¬ a.Promoted ids fs → a.AtHome ids fs ∨ a.Spares ids fs d
  signature : ¬ a.GenFaults → ¬ a.Promoted ids fs →
    ∀ old, fs (d ++ [sceEbootpbp]) = some (.file old) → a.SignatureKept ids fs old

/-- A run for `subdir` from `s` comes to the promotion, with these ids of the game. -/
def PspAnswers.Reaches (a : PspAnswers) (subdir : CStr) (s : Pass) (ids : GameIds) : Prop :=
  s.refreshPass = true ∧ a.refreshNeeded = true ∧ ∃ pbpType file,
    opened (Pbp.getPbpType a.stack (some [])) a.pbpType = some (pbpType, file) ∧
    pbpType ≠ Pbp.PbpType.unknown.code ∧ gameIds a pbpType subdir = some (some ids)

section Callback
variable {start : World} {d : Path} {s : Pass} {a : PspAnswers}

theorem promoteGame_kept_iff (h : Shows start d s (some d) start.fs) (hapart : Apart d pspTemp)
    (hdir : start.fs d = some .dir) (a : PspAnswers) (ids : GameIds) :
    GameKept d (finalState (promoteGame a d ids
      (allocateReadFile (a.cache.answers (start.fs (d ++ [sceEbootpbp])))) s)) ↔ a.Keeps ids start.fs d := by
  obtain ⟨t, fs, hrun, hshows, hstaged⟩ := promoteGame_staged h hapart a ids
    (allocateReadFile (a.cache.answers (start.fs (d ++ [sceEbootpbp]))))
  rw [hrun]
  by_cases hfaults : a.GenFaults
  · rw [bind_apply, genSceEbootpbp_faults hfaults, finalState_error, hshows.gameKept_home hstaged.files,
      hstaged.signature, removed_preserves_iff]
    exact ⟨fun h => ⟨fun _ => h, fun hnot => absurd hfaults hnot, fun hnot => absurd hfaults hnot⟩,
      fun h => h.faulting hfaults⟩
  · obtain ⟨u, hgen, hshows'⟩ := genSceEbootpbp_shows hshows hfaults d
    obtain ⟨v, hv, hkept⟩ := finish_kept_iff hshows' hapart hdir (hstaged.update hapart _)
      (allocateReadFile (a.cache.answers (start.fs (d ++ [sceEbootpbp])))) (a.genRet (fs (d ++ [sceEbootpbp])))
    rw [bind_of_ok hgen, hv, finalState_ok, hkept, hstaged.signature, ← PspAnswers.signatureBehind,
      preserves_iff]
    constructor
    · intro h
      exact ⟨fun hc => absurd hc hfaults, fun _ hnot => (h hnot).1, fun _ hnot => (h hnot).2⟩
    · intro h hnot
      exact ⟨h.game hfaults hnot, h.signature hfaults hnot⟩

theorem ofOption_some {α : Type} {x : Option α} {y : α} (h : x = some y) (s : Pass) :
    ofOption x s = .ok y s := by
  rw [h]
  rfl

theorem ofOption_none {α : Type} {x : Option α} (h : x = none) (s : Pass) :
    ofOption x s = .error .outOfBounds s := by
  rw [h]
  rfl

theorem pspCallback_reaches {dir : Path} {subdir : CStr} {ids : GameIds} (h : a.Reaches subdir s ids) :
    pspCallback a dir subdir s = promoteGame a (dir ++ [subdir]) ids
      (allocateReadFile (a.cache.answers (s.world.fs (dir ++ [subdir] ++ [sceEbootpbp])))) s := by
  obtain ⟨hpass, hneeded, pbpType, file, htype, hknown, hids⟩ := h
  have hcache : ofRefresh (cacheFile a.cache (dir ++ [subdir] ++ [sceEbootpbp])) s
      = .ok (allocateReadFile (a.cache.answers (s.world.fs (dir ++ [subdir] ++ [sceEbootpbp])))) s := rfl
  rw [pspCallback, bind_of_ok (get_apply s), if_pos hpass, if_pos hneeded,
    bind_of_ok (ofOption_some htype s)]
  dsimp only
  rw [if_pos hknown, bind_of_ok hcache, bind_of_ok (ofOption_some hids s)]

/-- A run that does not come to the promotion changes no file. -/
theorem pspCallback_idle (dir : Path) {subdir : CStr} (h : ∀ ids, ¬ a.Reaches subdir s ids) :
    (finalState (pspCallback a dir subdir s)).start = s.start ∧
      (finalState (pspCallback a dir subdir s)).steps = s.steps := by
  rw [pspCallback, bind_of_ok (get_apply s)]
  by_cases hpass : s.refreshPass = true
  · rw [if_pos hpass]
    by_cases hneeded : a.refreshNeeded = true
    · rw [if_pos hneeded]
      cases htype : opened (Pbp.getPbpType a.stack (some [])) a.pbpType with
      | none =>
        rw [bind_apply, ofOption_none rfl]
        exact ⟨rfl, rfl⟩
      | some found =>
        obtain ⟨pbpType, file⟩ := found
        rw [bind_of_ok (ofOption_some rfl s)]
        dsimp only
        by_cases hknown : pbpType ≠ Pbp.PbpType.unknown.code
        · have hcache : ofRefresh (cacheFile a.cache (dir ++ [subdir] ++ [sceEbootpbp])) s = .ok _ s := rfl
          rw [if_pos hknown, bind_of_ok hcache]
          cases hids : gameIds a pbpType subdir with
          | none =>
            rw [bind_apply, ofOption_none rfl]
            exact ⟨rfl, rfl⟩
          | some ids =>
            rw [bind_of_ok (ofOption_some rfl s)]
            cases ids with
            | none => exact ⟨rfl, rfl⟩
            | some ids => exact absurd ⟨hpass, hneeded, pbpType, file, htype, hknown, hids⟩ (h ids)
        · rw [if_neg hknown]
          exact ⟨rfl, rfl⟩
    · rw [if_neg hneeded]
      exact ⟨rfl, rfl⟩
  · rw [if_neg hpass]
    exact ⟨rfl, rfl⟩

theorem shows_nil (steps : s.steps = []) (d : Path) : Shows s.start d s (some d) s.start.fs where
  start := rfl
  place := by rw [steps]; rfl
  fs := by rw [Pass.world, steps]; rfl

end Callback

/-- **When a game survives.** For a game directory apart from `PSP_TEMP`, and for all answers of the calls: a
game that the promoter does not take is behind `psp_callback` at its own path or below `PSP_TEMP`, with all
its files, exactly when the run does not come to the promotion or its answers keep the game. -/
theorem pspCallback_kept_iff (a : PspAnswers) (dir : Path) (subdir : CStr) (s : Pass) (hs : s.steps = [])
    (hdir : s.start.fs (dir ++ [subdir]) = some .dir) (hapart : Apart (dir ++ [subdir]) pspTemp) :
    GameKept (dir ++ [subdir]) (finalState (pspCallback a dir subdir s)) ↔
      ∀ ids, a.Reaches subdir s ids → a.Keeps ids s.start.fs (dir ++ [subdir]) := by
  have hworld : s.world.fs = s.start.fs := by rw [Pass.world, hs]; rfl
  have hshows : Shows s.start (dir ++ [subdir]) s (some (dir ++ [subdir])) s.start.fs := shows_nil hs _
  by_cases hreaches : ∃ ids, a.Reaches subdir s ids
  · obtain ⟨ids, hids⟩ := hreaches
    have hone : ∀ ids', a.Reaches subdir s ids' → ids' = ids := by
      rintro ids' ⟨-, -, pbpType', file', htype', -, hids'⟩
      obtain ⟨-, -, pbpType, file, htype, -, hids⟩ := hids
      obtain ⟨rfl, -⟩ := Prod.mk.inj (Option.some.inj (htype'.symm.trans htype))
      exact Option.some.inj (Option.some.inj (hids'.symm.trans hids))
    rw [pspCallback_reaches hids, hworld, promoteGame_kept_iff hshows hapart hdir]
    constructor
    · intro hkeeps ids' hids'
      rw [hone ids' hids']
      exact hkeeps
    · intro hkeeps
      exact hkeeps ids hids
  · have hidle : ∀ ids, ¬ a.Reaches subdir s ids := not_exists.mp hreaches
    obtain ⟨hstart, hsteps⟩ := pspCallback_idle dir hidle
    have hkept : GameKept (dir ++ [subdir]) (finalState (pspCallback a dir subdir s)) := by
      intro q hq
      rw [hsteps, hs] at hq
      obtain rfl := Option.some.inj hq
      refine ⟨Or.inl rfl, fun rel e he => ?_⟩
      rw [Pass.world, hsteps, hs, hstart] at *
      exact he
    exact iff_of_true hkept fun ids hids => absurd hids (hidle ids)

/-! ## A game that is refused -/

def gameRoot : Path := [ux0, bytes "pspemu", bytes "PSP", bytes "GAME"]

def gameName : CStr := bytes "ULUS10000"

def gameSfo : List Byte := Sfo.encode Sfo.sfoMagic Sfo.discEntries

/-- The `EBOOT.PBP` of a PSP game: its param.sfo, and behind it the image with the content id. -/
def gameEboot : List Byte :=
  let image := 40 + gameSfo.length
  0 :: bytes "PBP" ++ leBytes 4 0x10000 ++ leBytes 4 40 ++ leBytes 4 image ++ List.replicate 16 0 ++
    leBytes 4 image ++ leBytes 4 image ++ gameSfo ++ Pbp.npumdimgFile.drop 40

/-- A game with its `EBOOT.PBP` and a signature. -/
def oneGame : World where
  fs := fun q =>
    if q = gameRoot ++ [gameName] then some .dir
    else if q = gameRoot ++ [gameName] ++ [bytes "EBOOT.PBP"] then some (.file gameEboot)
    else if q = gameRoot ++ [gameName] ++ [sceEbootpbp] then some (.file [2])
    else none
  accepted := []

def gamePass : Pass where
  start := oneGame
  steps := []
  refreshPass := true
  count := 0
  refreshed := 0

def gamePbp : Pbp.Reading :=
  { Pbp.wholeFile gameEboot with
    malloc := some fun _ => 0
    contentId := List.replicate 48 0 }

/-- The promoter refuses the game; the function that signs answers `signs`, and the rename back `back`. -/
def refusingAnswers (signs : ℤ) (back : Bool) : PspAnswers where
  refreshNeeded := true
  stack := fun _ _ => 0
  pbpType := gamePbp
  cache := ⟨3, true, 512⟩
  pbpContentId := gamePbp
  pbpSfo := gamePbp
  discid := List.replicate 12 0
  sceIoMkdir := fun _ => 0
  copyFile := ⟨false, none, -1⟩
  license := ⟨0x200, 8, 16, 0x70, 0x98⟩
  writeLicense := ⟨3, 0x98⟩
  sceIoRemove := 0
  gen := ⟨gamePbp, signs, List.replicate 0x200 7, ⟨3, 0x200⟩⟩
  renameToTemp := true
  promoter := { calmAnswers.promoter with scePromoterUtilityPromote := -1 }
  renameBack := back
  removePath := fun _ => false
  restore := ⟨3, 512⟩

def gameId : GameIds := ⟨List.replicate 36 65, gameName⟩

theorem oneGame_dir : oneGame.fs (gameRoot ++ [gameName]) = some .dir := by
  unfold oneGame
  dsimp only
  rw [if_pos rfl]

theorem oneGame_apart : Apart (gameRoot ++ [gameName]) pspTemp :=
  apart_of_ne [ux0, bytes "pspemu"] [bytes "GAME", gameName] [bytes "game"] (by decide)

theorem oneGame_signature {old : List Byte}
    (h : oneGame.fs (gameRoot ++ [gameName] ++ [sceEbootpbp]) = some (.file old)) : old = [2] := by
  have hfile : oneGame.fs (gameRoot ++ [gameName] ++ [sceEbootpbp]) = some (.file [2]) := by decide
  exact (some_file_inj.mp (hfile.symm.trans h)).symm

/-- The game is signed as what it is. -/
theorem refusing_signedType (signs : ℤ) (back : Bool) :
    signedType (refusingAnswers signs back) = some Pbp.PbpType.npumdimg.code := by
  have hsame : signedType (refusingAnswers signs back) = signedType (refusingAnswers 0 true) := rfl
  rw [hsame]
  decide +kernel

theorem refusing_not_faults (signs : ℤ) (back : Bool) : ¬ (refusingAnswers signs back).GenFaults := by
  intro hfaults
  have htype := refusing_signedType signs back
  rw [hfaults.2] at htype
  cases htype

/-- No new signature is made, and the game and its old signature come back. -/
theorem pspCallback_kept_refused : GameKept (gameRoot ++ [gameName])
    (finalState (pspCallback (refusingAnswers (-1) true) gameRoot gameName gamePass)) := by
  have hiff := pspCallback_kept_iff (refusingAnswers (-1) true) gameRoot gameName gamePass rfl oneGame_dir
    oneGame_apart
  have hfaults := refusing_not_faults (-1) true
  have hwrites : (refusingAnswers (-1) true).WritesBack [2] := by decide +kernel
  refine hiff.mpr fun ids _ => ⟨fun hc => absurd hc hfaults, fun _ _ => Or.inl fun _ => rfl, ?_⟩
  intro _ _ old hold
  obtain rfl := oneGame_signature hold
  have hnot (hc : ¬ ((refusingAnswers (-1) true).AtHome ids gamePass.start.fs ∧
      (refusingAnswers (-1) true).WritesBack [2])) : False := hc ⟨fun _ => rfl, hwrites⟩
  exact ⟨fun _ _ => by decide, fun hc => (hnot hc).elim, fun hc => (hnot hc).elim⟩

theorem gamePbp_type : ∃ file, opened (Pbp.getPbpType (fun _ _ => 0) (some [])) gamePbp
    = some (Pbp.PbpType.npumdimg.code, file) := ⟨_, rfl⟩

theorem refused_kept_iff (back : Bool) : GameKept (gameRoot ++ [gameName])
      (finalState (pspCallback (refusingAnswers 0 back) gameRoot gameName gamePass)) ↔
    (refusingAnswers 0 back).Keeps gameId oneGame.fs (gameRoot ++ [gameName]) := by
  have hids : gameIds (refusingAnswers 0 back) Pbp.PbpType.npumdimg.code gameName = some (some gameId) := by
    cases back <;> decide +kernel
  obtain ⟨file, hfile⟩ := gamePbp_type
  have hreaches : (refusingAnswers 0 back).Reaches gameName gamePass gameId :=
    ⟨rfl, rfl, Pbp.PbpType.npumdimg.code, file, hfile, by decide, hids⟩
  rw [pspCallback_reaches hreaches]
  exact promoteGame_kept_iff (shows_nil rfl _) oneGame_apart oneGame_dir _ gameId

/-- The promoter refuses the game. When it cannot be moved back, it is removed; and when it is moved back, it
has the new signature. -/
theorem pspCallback_loses_game :
    ¬ GameKept (gameRoot ++ [gameName])
        (finalState (pspCallback (refusingAnswers 0 false) gameRoot gameName gamePass)) ∧
      ¬ GameKept (gameRoot ++ [gameName])
        (finalState (pspCallback (refusingAnswers 0 true) gameRoot gameName gamePass)) := by
  have hrefused (back : Bool) : ¬ (refusingAnswers 0 back).Promoted gameId oneGame.fs := by
    intro hpromoted
    exact absurd hpromoted.2.2.2.2 (show ¬ (0 : ℤ) ≤ -1 by decide)
  rw [refused_kept_iff, refused_kept_iff]
  constructor
  · intro hkeeps
    have hfaults := refusing_not_faults 0 false
    have hmoved : (refusingAnswers 0 false).Moved gameId oneGame.fs := by decide +kernel
    rcases hkeeps.game hfaults (hrefused false) with hhome | hspares
    · exact absurd (hhome hmoved) Bool.false_ne_true
    · refine absurd (hspares [] ?_) Bool.false_ne_true
      rw [List.append_nil, oneGame_dir]
      exact Option.some_ne_none _
  · intro hkeeps
    have hfaults := refusing_not_faults 0 true
    have hwrites : ¬ (refusingAnswers 0 true).WritesBack [2] := by decide +kernel
    have hgenerates : (refusingAnswers 0 true).Generates := by decide +kernel
    have hsignature := (hkeeps.signature hfaults (hrefused true) [2] (by decide)).new
      (fun hc => hwrites hc.2) hgenerates
    revert hsignature
    decide +kernel

end VitaConnect.Refresh.Psp
