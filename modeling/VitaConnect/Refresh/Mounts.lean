import VitaConnect.Refresh.Needed
import VitaConnect.Sfo.Layout

/-! # The mounts that `refreshNeeded` makes

Only the patch of a title that exists mounts anything. Its mount is released on every way but one: when the
param.sfo of the appmeta cannot be read, the call returns before its second `pfsUmount`.
-/
namespace VitaConnect.Refresh
open CString Program
set_option autoImplicit false

/-! ## One call -/

structure NeededCall where
  answers : NeededAnswers
  appPath : CStr
  type : ContentType

def NeededCall.run (c : NeededCall) : NeededM PUnit := do
  let _ ← refreshNeeded c.answers c.appPath c.type
  pure ⟨⟩

def neededCalls : List NeededCall → NeededM PUnit := runAll NeededCall.run

/-- The appmeta is mounted, and its param.sfo cannot be read. -/
def MountedUnread (a : NeededAnswers) (titleid : CStr) : Prop :=
  a.pfs.granted (appmetaPath titleid) ≠ none ∧ (readAppmeta a titleid).1 < 0

/-- The call is for the patch of a title that exists, whose appmeta is mounted and not read. -/
def NeededCall.LeavesMount (c : NeededCall) : Prop :=
  c.type = .patch ∧ ∃ ids, paramIds c.answers c.appPath = some (some ids) ∧
    appExists c.answers (stringOf ids.titleid) = true ∧
    checkFileExist c.answers (paramPath c.appPath) = true ∧
    MountedUnread c.answers (stringOf ids.titleid)

section Call
variable {a : NeededAnswers} {appPath : CStr} {type : ContentType} {ids : Ids} {s t : Pfs.Globals} {res : ℤ}

/-- Behind `pfsMount` the mount stays when the param.sfo of the appmeta cannot be read. -/
theorem compareVersions_released_iff {point : Option Pfs.MountPoint} (hs : s.Holds point)
    (h : compareVersions a ids s = .ok res t) :
    t.Released ↔ ¬ (point ≠ none ∧ (readAppmeta a (stringOf ids.titleid)).1 < 0) := by
  unfold compareVersions at h
  dsimp only at h
  split_ifs at h with hunread
  · obtain ⟨-, rfl⟩ := eq_of_pure h
    rw [hs.released_iff]
    constructor
    · exact fun hnone hleft => hleft.1 hnone
    · exact fun hnot => by_contra fun hne => hnot ⟨hne, hunread⟩
  · obtain ⟨promoted, u, hu, h⟩ := bind_ok h
    obtain ⟨-, rfl⟩ := bounded_ok hu
    obtain ⟨_, v, hv, hreleased⟩ := Pfs.pfsUmount_ok (ε := ReadFault) a.pfs s
    rw [bind_of_ok hv] at h
    obtain ⟨-, rfl⟩ := eq_of_pure h
    exact iff_of_true (hreleased point hs) fun hleft => hunread hleft.2

theorem patchNeeded_released_iff (hs : s.Released) (h : patchNeeded a ids s = .ok res t) :
    t.Released ↔ ¬ MountedUnread a (stringOf ids.titleid) := by
  obtain ⟨u, hholds, hrun⟩ := patchNeeded_mounted a ids s
  rw [hrun] at h
  split_ifs at h with hrefused
  · obtain ⟨-, rfl⟩ := eq_of_pure h
    have hnone : a.pfs.granted (appmetaPath (stringOf ids.titleid)) = none :=
      Pfs.granted_of_refused hrefused
    rw [(hholds hs).released_iff]
    exact iff_of_true hnone fun hleft => hleft.1 hnone
  · exact compareVersions_released_iff (hholds hs) h

/-- Everything but the patch of a title that exists leaves the mounts alone. -/
theorem neededFor_released_iff (hs : s.Released) (h : neededFor a appPath type ids s = .ok res t) :
    t.Released ↔ ¬ (type = .patch ∧ appExists a (stringOf ids.titleid) = true ∧
      checkFileExist a (paramPath appPath) = true ∧ MountedUnread a (stringOf ids.titleid)) := by
  have hpure : ∀ z, (pure z : NeededM ℤ) s = .ok res t → t.Released := by
    intro z hz
    obtain ⟨-, rfl⟩ := eq_of_pure hz
    exact hs
  by_cases hpatch : type = .patch
  · subst hpatch
    rw [neededFor_patch] at h
    split_ifs at h with hexists hfile
    · exact iff_of_true (hpure 0 h) fun hleft => absurd (hexists.symm.trans hleft.2.1) (by decide)
    · rw [Bool.not_eq_false] at hexists
      rw [patchNeeded_released_iff hs h]
      simp only [hfile, hexists, true_and]
    · exact iff_of_true (hpure 1 h) fun hleft => hfile hleft.2.2.1
  · obtain ⟨z, hz⟩ := neededFor_of_ne_patch hpatch
    rw [hz] at h
    exact iff_of_true (hpure z h) fun hleft => hpatch hleft.1

end Call

/-- What one call does to the mounts. -/
theorem call_released_iff (c : NeededCall) (s t : Pfs.Globals) (hs : s.Released)
    (h : c.run s = .ok ⟨⟩ t) : t.Released ↔ ¬ c.LeavesMount := by
  obtain ⟨res, u, hneeded, hu⟩ := bind_ok h
  obtain rfl : u = t := by
    cases hu
    rfl
  obtain ⟨ids, v, hbounded, hneeded⟩ := bind_ok hneeded
  obtain ⟨hids, rfl⟩ := bounded_ok hbounded
  cases ids with
  | none =>
    obtain ⟨-, rfl⟩ := eq_of_pure hneeded
    refine iff_of_true hs fun ⟨htype, ids, hparam, _⟩ => ?_
    rw [htype] at hids
    cases hids.symm.trans hparam
  | some ids =>
    rw [neededFor_released_iff hs hneeded, not_iff_not]
    constructor
    · rintro ⟨htype, hleft⟩
      rw [htype] at hids
      exact ⟨htype, ids, hids, hleft⟩
    · rintro ⟨htype, ids', hparam, hleft⟩
      rw [htype] at hids
      obtain rfl : ids = ids' := Option.some.inj (Option.some.inj (hids.symm.trans hparam))
      exact ⟨htype, hleft⟩

/-! ## Sequences of calls -/

/-- The globals of `pfs.c` before anything is mounted. -/
def nothingMounted : Pfs.Globals where
  pfsMountedPath := []
  pfsMountPoint := []
  readOnly := false
  mounted := []

/-- **When no mount is left behind.** Behind every call that returns, `pfs_mount_point` is empty and every
mount is unmounted, exactly when none of these calls mounts an appmeta and fails to read its param.sfo. -/
theorem neededCalls_released_iff (calls : List NeededCall) :
    (∀ p t, p <+: calls → neededCalls p nothingMounted = .ok ⟨⟩ t → t.Released) ↔
      ∀ p t, p <+: calls → neededCalls p nothingMounted = .ok ⟨⟩ t → ∀ c ∈ p, ¬ c.LeavesMount :=
  runAll_prefixes_iff call_released_iff ⟨rfl, rfl⟩

def patchEntries : List Sfo.SfoEntry :=
  ⟨bytes "APP_VER", by decide, .string ⟨bytes "01.01", by decide⟩⟩ :: Sfo.titleEntries

/-- Every title exists, and every request to mount is granted; but no param.sfo of an appmeta can be opened. -/
def unreadAppmeta : NeededAnswers where
  unset := ⟨List.replicate 12 0, List.replicate 50 0, List.replicate 8 0⟩
  promotedAppver := List.replicate 8 0
  allocateReadFile := fun path =>
    if bytes "ux0:appmeta/" <+: path then ⟨-1, none, 0⟩
    else ⟨1, some (Sfo.encode Sfo.sfoMagic patchEntries), 80⟩
  sceIoOpen := fun _ => 1
  sceIoLseek := fun _ => 80
  promoter := ⟨0, 0, 0, 0, 0, 0⟩
  checkExist := fun _ => (0, none)
  rifName := []
  fixedRifName := []
  pfs := {
    kernel := fun _ => ⟨0, 0, 0, 0, true, fun _ => .granted 0 ⟨bytes "appmeta0:", by decide, by decide⟩⟩
    sceAppMgrGameDataMount := fun _ => .refused 0
    sceAppMgrUmount := fun _ => -1 }
  mallocFilename := none
  stack := fun _ _ => 0
  pbpType := ⟨-1, [], 0, fun _ => .full, none, [], []⟩
  pbpContentId := ⟨-1, [], 0, fun _ => .full, none, [], []⟩
  pbpSfo := ⟨-1, [], 0, fun _ => .full, none, [], []⟩
  vshNpDrmEbootSigVerify := 0

/-- One such patch leaves its mount behind. -/
theorem neededCalls_not_released :
    ¬ ∀ (calls p : List NeededCall) (t : Pfs.Globals), p <+: calls →
      neededCalls p nothingMounted = .ok ⟨⟩ t → t.Released := by
  intro h
  let calls : List NeededCall := [⟨unreadAppmeta, bytes "ux0:patch/PCSB00001", .patch⟩]
  have hreturned : returned (neededCalls calls nothingMounted) = true := by decide +kernel
  have hmounted : (finalState (neededCalls calls nothingMounted)).mounted ≠ [] := by decide +kernel
  exact hmounted (h calls calls _ (List.prefix_refl calls) (eq_ok_of_returned hreturned)).mounted

end VitaConnect.Refresh
