import VitaConnect.Refresh.Psp
import VitaConnect.Refresh.Transaction

/-! # The calls of `psp_callback`, with the game followed

The game is followed through the renames of a run, to its own path or to its path below `PSP_TEMP`. Each call
has a lemma that says where the game and what the file system is behind it.
-/
namespace VitaConnect.Refresh.Psp
open CString Program Storage
set_option autoImplicit false

/-! ## Following a directory -/

/-- Where a step brings what is at a path; what the promoter takes is nowhere. -/
def track (p : Option Path) (e : Step) : Option Path := p.bind fun p =>
  match e with
  | .sceIoRename src dst => some (if src <+: p then dst ++ p.drop src.length else p)
  | .promote path _ => if path <+: p then none else some p
  | _ => some p

def place (p : Path) (steps : List Step) : Option Path := steps.foldl track (some p)

/-- Every entry of the directory `d` of `start` is below `p` in `fs`. -/
def WholeAt (start fs : FileSystem) (d p : Path) : Prop :=
  ∀ rel e, start (d ++ rel) = some e → fs (p ++ rel) = some e

/-- Unless the promoter has taken it, the game is at its own path or below `PSP_TEMP`, with all its files. -/
def GameKept (d : Path) (s : Pass) : Prop :=
  ∀ p, place d s.steps = some p → (p = d ∨ pspTemp <+: p) ∧ WholeAt s.start.fs s.world.fs d p

/-- The game has come from `start` to `p`, in the file system `fs`. -/
structure Shows (start : World) (d : Path) (s : Pass) (p : Option Path) (fs : FileSystem) : Prop where
  start : s.start = start
  place : place d s.steps = p
  fs : s.world.fs = fs

theorem step_fs (w : World) (e : Step) : (w.step e).fs = (World.step ⟨w.fs, []⟩ e).fs := by
  cases e <;> rfl

section Follow
variable {start : World} {d : Path} {s : Pass} {p : Option Path} {fs : FileSystem}

theorem Shows.push (h : Shows start d s p fs) (e : Step) :
    Shows start d (s.push e) (track p e) (World.step ⟨fs, []⟩ e).fs where
  start := h.start
  place := by
    show (s.steps ++ [e]).foldl track (some d) = _
    rw [List.foldl_append, ← h.place]
    rfl
  fs := by rw [Pass.world_push, step_fs, h.fs]

theorem Shows.setFile (h : Shows start d s p fs) (q : Path) (e : Option (Entry (List Byte))) :
    Shows start d (s.push (.setFile q e)) p (Function.update fs q e) := by
  have hpush := h.push (.setFile q e)
  cases p with
  | none => exact hpush
  | some p => exact hpush

theorem Shows.removePath (h : Shows start d s p fs) (q : Path) (kept : Path → Bool) :
    Shows start d (s.push (.removePath q kept)) p
      (fs.graft q fun rel => if kept rel then fs.below q rel else none) := by
  have hpush := h.push (.removePath q kept)
  cases p with
  | none => exact hpush
  | some p => exact hpush

theorem Shows.rename {p : Path} (h : Shows start d s (some p) fs) (q : Path) :
    Shows start d (s.push (.sceIoRename p q)) (some q) (fs.move p q) := by
  have hpush := h.push (.sceIoRename p q)
  have htrack : track (some p) (.sceIoRename p q) = some q := by
    simp [track]
  rwa [htrack] at hpush

theorem Shows.addRefreshed (h : Shows start d s p fs) :
    Shows start d { s with refreshed := s.refreshed + 1 } p fs := ⟨h.start, h.place, h.fs⟩

theorem Shows.gameKept_iff (h : Shows start d s p fs) : GameKept d s ↔
    ∀ q, p = some q → (q = d ∨ pspTemp <+: q) ∧ WholeAt start.fs fs d q := by
  rw [GameKept, h.place, h.fs, h.start]

theorem Shows.congr {fs' : FileSystem} (h : Shows start d s p fs) (hfs : fs' = fs) :
    Shows start d s p fs' := hfs ▸ h

end Follow

/-! ## The calls -/

def WriteAnswers.ret (w : WriteAnswers) (before : Option (Entry (List Byte))) : ℤ :=
  if w.Opens before then w.sceIoWrite
  else if w.sceIoOpen < 0 then w.sceIoOpen else Files.eisdir.1

/-- What is at the path behind `WriteFile`. -/
def WriteAnswers.behind (w : WriteAnswers) (data : List Byte) (before : Option (Entry (List Byte))) :
    Option (Entry (List Byte)) :=
  if w.Opens before then some (.file (data.take w.sceIoWrite.toNat)) else before

def madeDir (a : PspAnswers) (fs : FileSystem) (q : Path) : FileSystem :=
  if 0 ≤ a.sceIoMkdir q ∧ fs q = none then Function.update fs q (some .dir) else fs

def madeDirs (a : PspAnswers) (fs : FileSystem) : FileSystem := promoteDirs.foldl (madeDir a) fs

/-- What is at the path behind `sceIoRemove`. -/
def removed (answer : ℤ) : Option (Entry (List Byte)) → Option (Entry (List Byte))
  | some (.file content) => if 0 ≤ answer then none else some (.file content)
  | e => e

section Calls
variable {start : World} {d : Path} {s : Pass} {p : Option Path} {fs : FileSystem}

theorem ofRefresh_ok {α : Type} {x : RefreshM α} {r : α} {t : Pass} (h : x s = .ok r t) :
    ofRefresh x s = .ok r t := by
  rw [ofRefresh, h]

theorem writeFile_shows (h : Shows start d s p fs) (w : WriteAnswers) (q : Path) (data : List Byte) :
    ∃ t, writeFile w q data s = .ok (w.ret (fs q)) t ∧
      Shows start d t p (Function.update fs q (w.behind data (fs q))) := by
  simp only [writeFile, bind_apply, get_apply, ite_run, h.fs, WriteAnswers.ret, WriteAnswers.behind]
  split
  · exact ⟨_, rfl, h.setFile q _⟩
  · refine ⟨s, rfl, h.congr ?_⟩
    exact Function.update_eq_self q fs

theorem sceIoMkdir_shows (h : Shows start d s p fs) (a : PspAnswers) (q : Path) :
    ∃ t, sceIoMkdir a q s = .ok ⟨⟩ t ∧ Shows start d t p (madeDir a fs q) := by
  simp only [sceIoMkdir, bind_apply, get_apply, ite_run, h.fs, madeDir]
  split
  · exact ⟨_, rfl, h.setFile q _⟩
  · exact ⟨s, rfl, h⟩

theorem makeDirs_shows (h : Shows start d s p fs) (a : PspAnswers) (dirs : List Path) :
    ∃ t, runAll (sceIoMkdir a) dirs s = .ok ⟨⟩ t ∧ Shows start d t p (dirs.foldl (madeDir a) fs) := by
  induction dirs generalizing s fs with
  | nil => exact ⟨s, rfl, h⟩
  | cons q dirs ih =>
    obtain ⟨t, ht, hshows⟩ := sceIoMkdir_shows h a q
    obtain ⟨u, hu, hshows'⟩ := ih hshows
    refine ⟨u, ?_, hshows'⟩
    rw [runAll_cons, ht]
    exact hu

theorem madeDir_of_ne {a : PspAnswers} {q r : Path} (h : r ≠ q) : madeDir a fs q r = fs r := by
  unfold madeDir
  split
  · exact Function.update_of_ne h _ _
  · rfl

theorem foldl_madeDir {a : PspAnswers} {dirs : List Path} {r : Path} (h : r ∉ dirs) :
    dirs.foldl (madeDir a) fs r = fs r := by
  induction dirs generalizing fs with
  | nil => rfl
  | cons q dirs ih =>
    rw [List.mem_cons, not_or] at h
    rw [List.foldl_cons, ih h.2, madeDir_of_ne h.1]

theorem copyFile_shows (h : Shows start d s p fs) (c : CopyAnswers) (q : Path) :
    ∃ res e t, copyFile c q s = .ok res t ∧ Shows start d t p (Function.update fs q e) := by
  simp only [copyFile, bind_apply, get_apply, ite_run, h.fs]
  split
  · exact ⟨_, _, _, rfl, h.setFile q _⟩
  · exact ⟨_, fs q, s, rfl, h.congr (Function.update_eq_self q fs)⟩

theorem prepareLicense_shows (h : Shows start d s p fs) (a : PspAnswers) (contentid : CStr) :
    ∃ e t, prepareLicense a contentid s = .ok ⟨⟩ t ∧
      Shows start d t p (Function.update fs (promoteLicenseRif contentid) e) := by
  obtain ⟨res, e, t, ht, hshows⟩ := copyFile_shows h a.copyFile (promoteLicenseRif contentid)
  rw [prepareLicense, bind_of_ok ht, ite_run]
  split
  · obtain ⟨u, hu, hshows'⟩ := writeFile_shows hshows a.writeLicense (promoteLicenseRif contentid)
      (a.license.fake contentid)
    rw [Function.update_idem] at hshows'
    exact ⟨_, u, bind_of_ok hu, hshows'⟩
  · exact ⟨e, t, rfl, hshows⟩

theorem sceIoRemove_shows (h : Shows start d s p fs) (answer : ℤ) (q : Path) :
    ∃ t, sceIoRemove answer q s = .ok ⟨⟩ t ∧
      Shows start d t p (Function.update fs q (removed answer (fs q))) := by
  have hsame (he : removed answer (fs q) = fs q) :
      Shows start d s p (Function.update fs q (removed answer (fs q))) := by
    rw [he, Function.update_eq_self]
    exact h
  simp only [sceIoRemove, bind_apply, get_apply, h.fs]
  cases hq : fs q with
  | none => exact ⟨s, rfl, hq ▸ hsame (by rw [hq]; rfl)⟩
  | some e =>
    cases e with
    | dir => exact ⟨s, rfl, hq ▸ hsame (by rw [hq]; rfl)⟩
    | file content =>
      dsimp only
      by_cases hanswer : 0 ≤ answer
      · refine ⟨s.push (.setFile q none), by rw [if_pos hanswer]; rfl, ?_⟩
        rw [removed, if_pos hanswer]
        exact h.setFile q none
      · refine ⟨s, by rw [if_neg hanswer]; rfl, hq ▸ hsame ?_⟩
        rw [hq, removed, if_neg hanswer]

end Calls

/-! ## The signature -/

/-- Hashing the file reads behind a buffer. -/
def PspAnswers.GenFaults (a : PspAnswers) : Prop := 0 ≤ a.gen.eboot.sceIoOpen ∧ signedType a = none

/-- `gen_sce_ebootpbp` comes to `WriteFile`. -/
def PspAnswers.Signs (a : PspAnswers) : Prop :=
  0 ≤ a.gen.eboot.sceIoOpen ∧ signedType a ≠ some Pbp.PbpType.unknown.code ∧
    0 ≤ a.gen.vshNpDrmEbootSigGen

instance (a : PspAnswers) : Decidable a.GenFaults := inferInstanceAs (Decidable (_ ∧ _))

instance (a : PspAnswers) : Decidable a.Signs := inferInstanceAs (Decidable (_ ∧ _ ∧ _))

/-- What `gen_sce_ebootpbp` answers when it does not come to `WriteFile`. -/
def PspAnswers.unsigned (a : PspAnswers) : ℤ :=
  if a.gen.eboot.sceIoOpen < 0 ∨ signedType a = some Pbp.PbpType.unknown.code then 0
  else a.gen.vshNpDrmEbootSigGen

def PspAnswers.signature (a : PspAnswers) : List Byte := a.gen.sceEbootpbp.take 0x200

def PspAnswers.genRet (a : PspAnswers) (before : Option (Entry (List Byte))) : ℤ :=
  if a.Signs then a.gen.write.ret before else a.unsigned

def PspAnswers.genBehind (a : PspAnswers) (before : Option (Entry (List Byte))) :
    Option (Entry (List Byte)) :=
  if a.Signs then a.gen.write.behind a.signature before else before

section Signature
variable {start : World} {d : Path} {s : Pass} {p : Option Path} {fs : FileSystem} {a : PspAnswers}

theorem genSceEbootpbp_faults (h : a.GenFaults) (q : Path) (s : Pass) :
    genSceEbootpbp a q s = .error .outOfBounds s := by
  have hopen : ¬ a.gen.eboot.sceIoOpen < 0 := not_lt.mpr h.1
  rw [genSceEbootpbp, if_neg hopen, h.2]
  rfl

theorem genSceEbootpbp_shows (h : Shows start d s p fs) (hfaults : ¬ a.GenFaults) (q : Path) :
    ∃ t, genSceEbootpbp a q s = .ok (a.genRet (fs (q ++ [sceEbootpbp]))) t ∧
      Shows start d t p (Function.update fs (q ++ [sceEbootpbp]) (a.genBehind (fs (q ++ [sceEbootpbp])))) := by
  have hunsigned (hsigns : ¬ a.Signs) : Shows start d s p
      (Function.update fs (q ++ [sceEbootpbp]) (a.genBehind (fs (q ++ [sceEbootpbp])))) := by
    rw [PspAnswers.genBehind, if_neg hsigns, Function.update_eq_self]
    exact h
  by_cases hopen : a.gen.eboot.sceIoOpen < 0
  · have hsigns : ¬ a.Signs := fun hs => absurd hs.1 (not_le.mpr hopen)
    refine ⟨s, ?_, hunsigned hsigns⟩
    rw [genSceEbootpbp, if_pos hopen, PspAnswers.genRet, if_neg hsigns, PspAnswers.unsigned,
      if_pos (Or.inl hopen)]
    rfl
  rw [genSceEbootpbp, if_neg hopen]
  cases htype : signedType a with
  | none => exact absurd ⟨not_lt.mp hopen, htype⟩ hfaults
  | some pbpType =>
    dsimp only
    by_cases hunknown : pbpType = Pbp.PbpType.unknown.code
    · have hsigns : ¬ a.Signs := fun hs => hs.2.1 (by rw [htype, hunknown])
      refine ⟨s, ?_, hunsigned hsigns⟩
      rw [if_pos hunknown, PspAnswers.genRet, if_neg hsigns, PspAnswers.unsigned,
        if_pos (Or.inr (by rw [htype, hunknown]))]
      rfl
    have hknown : signedType a ≠ some Pbp.PbpType.unknown.code := by
      rw [htype]
      exact fun heq => hunknown (Option.some.inj heq)
    rw [if_neg hunknown]
    by_cases hsign : a.gen.vshNpDrmEbootSigGen < 0
    · have hsigns : ¬ a.Signs := fun hs => absurd hs.2.2 (not_le.mpr hsign)
      refine ⟨s, ?_, hunsigned hsigns⟩
      rw [if_pos hsign, PspAnswers.genRet, if_neg hsigns, PspAnswers.unsigned,
        if_neg (not_or.mpr ⟨hopen, hknown⟩)]
      rfl
    · have hsigns : a.Signs := ⟨not_lt.mp hopen, hknown, not_lt.mp hsign⟩
      obtain ⟨t, ht, hshows⟩ := writeFile_shows h a.gen.write (q ++ [sceEbootpbp]) a.signature
      refine ⟨t, ?_, ?_⟩
      · rw [if_neg hsign, PspAnswers.genRet, if_pos hsigns]
        exact ofRefresh_ok ht
      · rw [PspAnswers.genBehind, if_pos hsigns]
        exact hshows

/-- What is at the path of the signature when the old one may have been written back. -/
def PspAnswers.restored (a : PspAnswers) (cached : ℤ × Option (List Byte)) (ebootGen : ℤ)
    (before : Option (Entry (List Byte))) : Option (Entry (List Byte)) :=
  if ebootGen < 0 ∧ 0 < cached.1 then a.restore.behind (cached.2.getD []) before else before

theorem restoreSignature_shows (h : Shows start d s p fs) (q : Path) (cached : ℤ × Option (List Byte))
    (ebootGen : ℤ) : ∃ t, restoreSignature a q cached ebootGen s = .ok ⟨⟩ t ∧
      Shows start d t p (Function.update fs (q ++ [sceEbootpbp])
        (a.restored cached ebootGen (fs (q ++ [sceEbootpbp])))) := by
  rw [restoreSignature, ite_run, PspAnswers.restored]
  split
  · obtain ⟨t, ht, hshows⟩ := writeFile_shows h a.restore (q ++ [sceEbootpbp]) (cached.2.getD [])
    exact ⟨t, bind_of_ok ht, hshows⟩
  · refine ⟨s, rfl, h.congr ?_⟩
    exact Function.update_eq_self _ fs

end Signature

/-! ## The paths of a run -/

def target (ids : GameIds) : Path := pspTemp ++ promoteGameFolder ids.discid

theorem mem_promoteDirs {q : Path} (h : q ∈ promoteDirs) : q <+: pspTemp ∨ pspTemp <+: q := by
  revert q
  decide

theorem target_ne_license (ids : GameIds) : target ids ≠ promoteLicenseRif ids.contentid := by
  have hne : bytes "GAME" ≠ bytes "LICENSE" := by decide
  intro heq
  have hprefix : target ids <+: promoteLicenseRif ids.contentid := by rw [heq]
  exact (apart_of_ne (pspTemp ++ [bytes "PSP"]) _ _ hne).1 hprefix

section Paths
variable {d : Path}

theorem below_notMem (hapart : Apart d pspTemp) (rel : Path) : d ++ rel ∉ promoteDirs := by
  intro hmem
  rcases mem_promoteDirs hmem with hprefix | hprefix
  · exact hapart.1 ((List.prefix_append d rel).trans hprefix)
  · exact hapart.symm.not_prefix_append rel hprefix

theorem below_ne_license (hapart : Apart d pspTemp) (rel : Path) (contentid : CStr) :
    d ++ rel ≠ promoteLicenseRif contentid := by
  rw [promoteLicenseRif, List.append_assoc]
  exact hapart.append_ne rel _

theorem below_ne_target (hapart : Apart d pspTemp) (rel : Path) (ids : GameIds) : d ++ rel ≠ target ids :=
  hapart.append_ne rel _

theorem apart_target (hapart : Apart d pspTemp) (ids : GameIds) : Apart d (target ids) := by
  refine ⟨fun hprefix => ?_, fun hprefix => ?_⟩
  · exact hapart.not_prefix_append _ hprefix
  · exact hapart.2 ((List.prefix_append pspTemp _).trans hprefix)

theorem below_ne_signature {rel : Path} (h : rel ≠ [sceEbootpbp]) : d ++ rel ≠ d ++ [sceEbootpbp] :=
  fun heq => h (List.append_cancel_left heq)

end Paths

end VitaConnect.Refresh.Psp
