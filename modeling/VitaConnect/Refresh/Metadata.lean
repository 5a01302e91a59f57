import VitaConnect.Refresh.Mounts
import VitaConnect.Sfo.Search

/-! # Content whose metadata cannot be established

`refreshNeeded` should refuse an app, a dlc or a patch whose metadata is missing or unreadable, and the
callbacks should leave its directory alone. `LeftAnyway` is when this is so: a param.sfo without title id
leads to a decision about the title that the unset array names, and the error code of an unread appmeta
counts as a yes.
-/
namespace VitaConnect.Refresh
open CString Program
set_option autoImplicit false

/-! ## The metadata -/

def HasTitleId (buffer : List Byte) : Prop := Sfo.HasEntry buffer (bytes "TITLE_ID")

/-- `scePromoterUtilityCheckExist` finds the title. -/
def Installed (a : NeededAnswers) (titleid : CStr) : Prop := 0 ≤ (a.checkExist titleid).1

inductive Unestablished (a : NeededAnswers) (appPath : CStr) : ContentType → Prop
  /-- The param.sfo is missing or cannot be read. -/
  | unread (type : ContentType) : (readParam a appPath).1 < 0 → Unestablished a appPath type
  /-- It has a wrong magic or no `TITLE_ID`. -/
  | untitled (type : ContentType) (size : ℤ) (buffer : List Byte) : 0 ≤ size →
      readParam a appPath = (size, some buffer) → ¬ HasTitleId buffer → Unestablished a appPath type
  /-- The appmeta of the installed title cannot be mounted, or its param.sfo not read. -/
  | appmeta (ids : Ids) : paramIds a appPath = some (some ids) →
      Installed a (stringOf ids.titleid) →
      mountAnswer a (stringOf ids.titleid) < 0 ∨ (readAppmeta a (stringOf ids.titleid)).1 < 0 →
      Unestablished a appPath .patch

/-! ## What the callbacks do -/

/-- With the answer `res` of `refreshNeeded`, the callback leaves the directory alone: nothing is done. -/
def LeavesDirectory (res : ℤ) : ContentType → Prop
  | .app => ∀ (answers : Answers) (dir : Path) (subdir : CStr) (pass : Pass),
      answers.refreshNeeded = decide (res ≠ 0) → pass.refreshPass = true →
        appCallback answers dir subdir pass = .ok ⟨⟩ pass
  | .patch => ∀ (answers : Answers) (dir : Path) (subdir : CStr) (pass : Pass),
      answers.refreshNeeded = decide (res ≠ 0) → pass.refreshPass = true →
        patchCallback answers dir subdir pass = .ok ⟨⟩ pass
  | .dlc => ∀ (len : ℕ) (str : DlcString) (run : DlcRun),
      str.answers.refreshNeeded = decide (res ≠ 0) →
        ∃ t, (moveDlc len str >>= refreshDlc len) run = .ok ⟨⟩ t ∧ t.pass = run.pass
  | _ => True

/-- `refreshNeeded` returns 0, and the callback leaves the directory alone. -/
def LeftAlone (a : NeededAnswers) (appPath : CStr) (type : ContentType) (s : Pfs.Globals) : Prop :=
  ∃ res t, refreshNeeded a appPath type s = .ok res t ∧ res = 0 ∧ LeavesDirectory res type

theorem contentCallback_refused {answers : Answers} {pass : Pass} (temp dir : Path) (subdir : CStr)
    (h : answers.refreshNeeded = false) (hpass : pass.refreshPass = true) :
    contentCallback temp answers dir subdir pass = .ok ⟨⟩ pass := by
  simp only [contentCallback, bind_apply, get_apply, hpass, h, if_true, Bool.false_eq_true, if_false,
    pure_apply]

theorem leavesDirectory_zero (type : ContentType) : LeavesDirectory 0 type := by
  cases type with
  | app => exact fun answers dir subdir pass => contentCallback_refused appTemp dir subdir
  | patch => exact fun answers dir subdir pass => contentCallback_refused patchTemp dir subdir
  | dlc =>
    intro len str run h
    have hfalse : str.answers.refreshNeeded = false := h
    simp only [moveDlc, readString, onHeap, refreshDlc, bind_apply, modify_apply, pure_apply, hfalse,
      Bool.false_eq_true, if_false]
    exact ⟨_, rfl, rfl⟩
  | psm => trivial
  | psp => trivial

/-! ## The decision -/

/-- The version of the patch is the one in the appmeta. -/
def SameVersion (a : NeededAnswers) (ids : Ids) : Prop :=
  0 ≤ (readAppmeta a (stringOf ids.titleid)).1 ∧
    promotedAppver a (readAppmeta a (stringOf ids.titleid)).2 = some (stringOf ids.appver)

/-- The ids lead to no refresh. -/
def Dismissed (a : NeededAnswers) (appPath : CStr) (type : ContentType) (ids : Ids) : Prop :=
  if type = .patch then
    appExists a (stringOf ids.titleid) = false ∨ checkFileExist a (paramPath appPath) = true ∧
      (mountAnswer a (stringOf ids.titleid) < 0 ∨ SameVersion a ids)
  else appExists a (stringOf ids.titleid) = true ∧ licensed a type ids = true

section Decision
variable {a : NeededAnswers} {appPath : CStr} {type : ContentType} {ids : Ids} {s : Pfs.Globals}

theorem ok_pure_iff {z : ℤ} : (∃ t, (pure z : NeededM ℤ) s = .ok 0 t) ↔ z = 0 := by
  constructor
  · rintro ⟨t, h⟩
    exact (eq_of_pure h).1
  · rintro rfl
    exact ⟨s, rfl⟩

theorem compareVersions_zero_iff : (∃ t, compareVersions a ids s = .ok 0 t) ↔ SameVersion a ids := by
  rw [compareVersions, SameVersion]
  dsimp only
  by_cases hread : (readAppmeta a (stringOf ids.titleid)).1 < 0
  · rw [if_pos hread, ok_pure_iff]
    exact iff_of_false hread.ne fun h => absurd h.1 (not_le.mpr hread)
  rw [if_neg hread, and_iff_right (not_lt.mp hread)]
  cases promotedAppver a (readAppmeta a (stringOf ids.titleid)).2 with
  | none =>
    refine iff_of_false ?_ (by simp)
    rintro ⟨t, h⟩
    cases h
  | some promoted =>
    obtain ⟨_, u, hu, -⟩ := Pfs.pfsUmount_ok (ε := ReadFault) a.pfs s
    have hrun : (do
        let promoted ← bounded (some promoted)
        let _ ← Pfs.pfsUmount a.pfs
        pure (if stringOf ids.appver = promoted then 0 else 1) : NeededM ℤ) s =
          .ok (if stringOf ids.appver = promoted then 0 else 1) u := bind_of_ok hu
    rw [hrun, Option.some.injEq]
    by_cases hsame : stringOf ids.appver = promoted
    · rw [if_pos hsame]
      exact iff_of_true ⟨u, rfl⟩ hsame.symm
    · rw [if_neg hsame]
      refine iff_of_false ?_ (Ne.symm hsame)
      rintro ⟨t, h⟩
      cases h

theorem patchNeeded_zero_iff : (∃ t, patchNeeded a ids s = .ok 0 t) ↔
    mountAnswer a (stringOf ids.titleid) < 0 ∨ SameVersion a ids := by
  obtain ⟨u, -, hrun⟩ := patchNeeded_mounted a ids s
  rw [hrun]
  by_cases hrefused : mountAnswer a (stringOf ids.titleid) < 0
  · rw [if_pos hrefused]
    exact iff_of_true ⟨u, rfl⟩ (Or.inl hrefused)
  · rw [if_neg hrefused, or_iff_right hrefused, compareVersions_zero_iff]

theorem neededFor_zero_iff (htype : type = .app ∨ type = .dlc ∨ type = .patch) :
    (∃ t, neededFor a appPath type ids s = .ok 0 t) ↔ Dismissed a appPath type ids := by
  unfold Dismissed
  by_cases hpatch : type = .patch
  · subst hpatch
    rw [neededFor_patch, if_pos rfl]
    by_cases hexists : appExists a (stringOf ids.titleid) = false
    · rw [if_pos hexists, ok_pure_iff]
      exact iff_of_true rfl (Or.inl hexists)
    rw [if_neg hexists, or_iff_right hexists]
    by_cases hfile : checkFileExist a (paramPath appPath) = true
    · rw [if_pos hfile, patchNeeded_zero_iff, and_iff_right hfile]
    · rw [if_neg hfile, ok_pure_iff]
      exact iff_of_false one_ne_zero fun h => hfile h.1
  · have hvita : type = .app ∨ type = .dlc := by tauto
    rw [neededFor_vita hvita, if_neg hpatch, ok_pure_iff]
    simp

theorem readIds_of_vita (htype : type = .app ∨ type = .dlc ∨ type = .patch) :
    readIds a appPath type = paramIds a appPath := by
  rcases htype with rfl | rfl | rfl <;> rfl

theorem paramIds_unread (h : (readParam a appPath).1 < 0) : paramIds a appPath = some none :=
  if_pos h

theorem paramIds_read (h : 0 ≤ (readParam a appPath).1) :
    paramIds a appPath = ((readParam a appPath).2.bind (sfoIds a.unset)).map some := by
  have hparam : paramIds a appPath = (do
      let buffer ← (readParam a appPath).2
      let ids ← sfoIds a.unset buffer
      some (some ids)) := if_neg (not_lt.mpr h)
  rw [hparam]
  cases (readParam a appPath).2 with
  | none => rfl
  | some buffer => cases hids : sfoIds a.unset buffer <;> simp [hids]

/-- When the answer is 0. -/
theorem refreshNeeded_zero_iff (htype : type = .app ∨ type = .dlc ∨ type = .patch) :
    (∃ t, refreshNeeded a appPath type s = .ok 0 t) ↔ (readParam a appPath).1 < 0 ∨
      ∃ ids, paramIds a appPath = some (some ids) ∧ Dismissed a appPath type ids := by
  rw [refreshNeeded, readIds_of_vita htype]
  by_cases hread : (readParam a appPath).1 < 0
  · rw [paramIds_unread hread]
    exact iff_of_true ⟨s, rfl⟩ (Or.inl hread)
  rw [or_iff_right hread, paramIds_read (not_lt.mp hread)]
  cases (readParam a appPath).2.bind (sfoIds a.unset) with
  | none =>
    refine iff_of_false ?_ (by simp)
    rintro ⟨t, h⟩
    cases h
  | some ids =>
    show (∃ t, neededFor a appPath type ids s = .ok 0 t) ↔ _
    rw [neededFor_zero_iff htype]
    simp only [Option.map_some, Option.some.injEq, exists_eq_left']

theorem leftAlone_iff (htype : type = .app ∨ type = .dlc ∨ type = .patch) :
    LeftAlone a appPath type s ↔ (readParam a appPath).1 < 0 ∨
      ∃ ids, paramIds a appPath = some (some ids) ∧ Dismissed a appPath type ids := by
  rw [← refreshNeeded_zero_iff (s := s) htype]
  constructor
  · rintro ⟨_, t, h, rfl, -⟩
    exact ⟨t, h⟩
  · rintro ⟨t, h⟩
    exact ⟨0, t, h, rfl, leavesDirectory_zero type⟩

end Decision

/-! ## When the content is left alone -/

section Left
variable {a : NeededAnswers} {appPath titleid : CStr} {ids : Ids} {size : ℤ} {buffer : List Byte}

/-- Without `TITLE_ID` the array for the title id is as it was. -/
theorem titleid_of_untitled (hsize : 0 ≤ size) (hread : readParam a appPath = (size, some buffer))
    (huntitled : ¬ HasTitleId buffer) (hids : paramIds a appPath = some (some ids)) :
    ids.titleid = a.unset.titleid := by
  have hsizeParam : 0 ≤ (readParam a appPath).1 := by
    rw [hread]
    exact hsize
  rw [paramIds_read hsizeParam, hread] at hids
  obtain ⟨ids', hsfo, heq⟩ := Option.map_eq_some_iff.mp hids
  obtain rfl : ids' = ids := Option.some.inj heq
  have hsfo : sfoIds a.unset buffer = some ids' := hsfo
  simp only [sfoIds, Option.bind_eq_bind] at hsfo
  obtain ⟨⟨res, titleid⟩, htitleid, hsfo⟩ := Option.bind_eq_some_iff.mp hsfo
  obtain ⟨⟨_, contentid⟩, -, hsfo⟩ := Option.bind_eq_some_iff.mp hsfo
  obtain ⟨⟨_, appver⟩, -, hsfo⟩ := Option.bind_eq_some_iff.mp hsfo
  obtain rfl := Option.some.inj hsfo
  exact Sfo.getSfo_unset huntitled htitleid

/-- A read that does not fail leaves a buffer. -/
theorem allocateReadFile_read {r : ReadAnswers} (h : 0 ≤ (allocateReadFile r).1) :
    ∃ buffer, allocateReadFile r = ((allocateReadFile r).1, some buffer) := by
  unfold allocateReadFile at h ⊢
  by_cases hopen : r.sceIoOpen < 0
  · rw [if_pos hopen] at h
    exact absurd h (not_le.mpr hopen)
  · rw [if_neg hopen] at h ⊢
    cases hmalloc : r.malloc with
    | none =>
      rw [hmalloc] at h
      exact absurd h (by decide : ¬ 0 ≤ noMemory)
    | some buffer => exact ⟨buffer, rfl⟩

theorem appExists_of_installed (h : Installed a titleid) : appExists a titleid = true := by
  unfold appExists
  apply decide_eq_true
  show ((List.find? _ _).map Promoter.SysCall.res).getD _ ≠ 0
  cases hfailed : (Promoter.steps a.promoter _).find? Promoter.SysCall.failed with
  | none =>
    rw [Option.map_none, Option.getD_none, if_pos (show 0 ≤ (a.checkExist titleid).1 from h)]
    exact one_ne_zero
  | some call =>
    have hneg := (Promoter.failed_eq_true_iff call).mp (List.find?_some hfailed)
    exact hneg.ne

theorem dismissed_of_installed (h : Installed a (stringOf ids.titleid)) :
    Dismissed a appPath .patch ids ↔ checkFileExist a (paramPath appPath) = true ∧
      (mountAnswer a (stringOf ids.titleid) < 0 ∨ SameVersion a ids) := by
  rw [Dismissed, if_pos rfl, appExists_of_installed h]
  exact or_iff_right (by decide)

end Left

structure LeftAnyway (a : NeededAnswers) (appPath : CStr) (type : ContentType) : Prop where
  /-- With a title id: the appmeta of an installed title is mounted and read, or it is not mounted and the
  param.sfo of the patch can be opened once more. -/
  titled : type = .patch → ∀ size buffer ids, 0 ≤ size → readParam a appPath = (size, some buffer) →
    HasTitleId buffer → paramIds a appPath = some (some ids) → Installed a (stringOf ids.titleid) →
      (mountAnswer a (stringOf ids.titleid) < 0 → checkFileExist a (paramPath appPath) = true) ∧
      (0 ≤ mountAnswer a (stringOf ids.titleid) → 0 ≤ (readAppmeta a (stringOf ids.titleid)).1)
  /-- Without one: what the unset array names is dismissed. -/
  untitled : ∀ size buffer, 0 ≤ size → readParam a appPath = (size, some buffer) →
    ¬ HasTitleId buffer → ∃ ids, paramIds a appPath = some (some ids) ∧
      ids.titleid = a.unset.titleid ∧ Dismissed a appPath type ids

/-- **Unestablished metadata.** The directory of content without metadata is left alone exactly when
`LeftAnyway`. -/
theorem refreshNeeded_leftAlone_iff (a : NeededAnswers) (appPath : CStr) (type : ContentType) (s : Pfs.Globals)
    (htype : type = .app ∨ type = .dlc ∨ type = .patch) :
    (Unestablished a appPath type → LeftAlone a appPath type s) ↔ LeftAnyway a appPath type := by
  rw [leftAlone_iff htype]
  constructor
  · intro h
    have hdismissed : ∀ size buffer, 0 ≤ size → readParam a appPath = (size, some buffer) →
        Unestablished a appPath type →
          ∃ ids, paramIds a appPath = some (some ids) ∧ Dismissed a appPath type ids := by
      intro size buffer hsize hread hun
      refine (h hun).resolve_left fun hneg => ?_
      rw [hread] at hneg
      exact absurd hsize (not_le.mpr hneg)
    refine ⟨?_, ?_⟩
    · rintro rfl size buffer ids hsize hread - hids hinstalled
      have hpatch : mountAnswer a (stringOf ids.titleid) < 0 ∨
          (readAppmeta a (stringOf ids.titleid)).1 < 0 →
            checkFileExist a (paramPath appPath) = true ∧
              (mountAnswer a (stringOf ids.titleid) < 0 ∨ SameVersion a ids) := by
        intro hun
        obtain ⟨ids', hids', hdis⟩ := hdismissed size buffer hsize hread (.appmeta ids hids hinstalled hun)
        obtain rfl : ids = ids' := Option.some.inj (Option.some.inj (hids.symm.trans hids'))
        exact (dismissed_of_installed hinstalled).mp hdis
      refine ⟨fun hrefused => (hpatch (Or.inl hrefused)).1, fun hmounted => ?_⟩
      by_contra hunread
      rcases (hpatch (Or.inr (not_le.mp hunread))).2 with hrefused | hsame
      · exact absurd hmounted (not_le.mpr hrefused)
      · exact hunread hsame.1
    · intro size buffer hsize hread huntitled
      obtain ⟨ids, hids, hdis⟩ :=
        hdismissed size buffer hsize hread (.untitled type size buffer hsize hread huntitled)
      exact ⟨ids, hids, titleid_of_untitled hsize hread huntitled hids, hdis⟩
  · rintro ⟨htitled, huntitled⟩ hun
    cases hun with
    | unread _ hneg => exact Or.inl hneg
    | untitled _ size buffer hsize hread hnone =>
      obtain ⟨ids, hids, -, hdis⟩ := huntitled size buffer hsize hread hnone
      exact Or.inr ⟨ids, hids, hdis⟩
    | appmeta ids hids hinstalled hun =>
      by_cases hneg : (readParam a appPath).1 < 0
      · exact Or.inl hneg
      obtain ⟨buffer, hread⟩ := allocateReadFile_read (not_lt.mp hneg)
      right
      by_cases htitle : HasTitleId buffer
      · obtain ⟨hrefused, hmounted⟩ :=
          htitled rfl _ buffer ids (not_lt.mp hneg) hread htitle hids hinstalled
        have hmount : mountAnswer a (stringOf ids.titleid) < 0 := by
          by_contra hle
          have hunread := hun.resolve_left hle
          exact absurd (hmounted (not_lt.mp hle)) (not_le.mpr hunread)
        exact ⟨ids, hids, (dismissed_of_installed hinstalled).mpr ⟨hrefused hmount, Or.inl hmount⟩⟩
      · obtain ⟨ids', hids', -, hdis⟩ := huntitled _ buffer (not_lt.mp hneg) hread htitle
        exact ⟨ids', hids', hdis⟩

/-- A directory whose param.sfo cannot be opened is left alone. -/
theorem refreshNeeded_leftAlone_unread :
    let a := { unreadAppmeta with allocateReadFile := fun _ => ⟨-1, none, 0⟩ }
    (ContentType.app = .app ∨ ContentType.app = .dlc ∨ ContentType.app = .patch) ∧
      LeftAlone a (bytes "ux0:app/PCSB00001") .app nothingMounted := by
  intro a
  have htype : ContentType.app = .app ∨ ContentType.app = .dlc ∨ ContentType.app = .patch := Or.inl rfl
  have hleft : LeftAnyway a (bytes "ux0:app/PCSB00001") .app := by
    constructor
    · intro hpatch
      cases hpatch
    · intro size buffer hsize hread
      cases hread
  have hneg : (readParam a (bytes "ux0:app/PCSB00001")).1 < 0 := by decide +kernel
  refine ⟨htype, ?_⟩
  apply (refreshNeeded_leftAlone_iff a (bytes "ux0:app/PCSB00001") .app nothingMounted htype).mpr hleft
  exact .unread .app hneg

/-- The param.sfo has another magic, and no title exists: the app is taken to need a refresh. -/
theorem refreshNeeded_not_leftAlone :
    ¬ ∀ (a : NeededAnswers) (appPath : CStr) (type : ContentType) (s : Pfs.Globals),
      (type = .app ∨ type = .dlc ∨ type = .patch) → Unestablished a appPath type →
        LeftAlone a appPath type s := by
  intro h
  let a := { unreadAppmeta with
    allocateReadFile := fun _ => ⟨1, some (Sfo.encode 0 []), 20⟩
    checkExist := fun _ => (-1, none) }
  have huntitled : ¬ HasTitleId (Sfo.encode 0 []) := by
    rintro ⟨hmagic, -⟩
    revert hmagic
    decide
  have hone : refreshNeeded a (bytes "ux0:app/PCSB00001") .app nothingMounted = .ok 1 nothingMounted := by
    rfl
  obtain ⟨res, t, hzero, rfl, -⟩ := h a (bytes "ux0:app/PCSB00001") .app nothingMounted (Or.inl rfl)
    (.untitled .app 20 _ (by decide) rfl huntitled)
  cases hone.symm.trans hzero

end VitaConnect.Refresh
