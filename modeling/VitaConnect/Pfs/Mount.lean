import VitaConnect.CString.Basic
import VitaConnect.Program.Effect

/-! # Mounting a content directory (`pfs.c`; `shellKernelMountById` of `modules/kernel/main.c`)

`mounted` has the mount points that SceAppMgr has given for the requests of `pfsMount` and that are not
unmounted. A request that it refuses mounts nothing and leaves the array for the point as it is; one that
it grants leaves the point there. `sceAppMgrUmount` succeeds on a point that is mounted.
-/
namespace VitaConnect.Pfs
open CString Program
set_option autoImplicit false

/-! ## Data -/

/-- A mount point fits the 16 bytes of `pfs_mount_point`. -/
structure MountPoint where
  name : CStr
  nonempty : name ≠ []
  fits : name.length ≤ 15
  deriving DecidableEq

/-- What SceAppMgr does with a request; `res` is negative when it refuses. -/
inductive Mounting
  | refused (code : ℕ)
  | granted (code : ℕ) (point : MountPoint)

def Mounting.res : Mounting → ℤ
  | refused code => Int.negSucc code
  | granted code _ => code

def Mounting.point : Mounting → Option MountPoint
  | refused _ => none
  | granted _ point => some point

structure ShellMountIdArgs where
  id : ℕ
  processTitleid : CStr
  path : CStr
  klicensee : List Byte

structure KernelAnswers where
  taiGetModuleInfoForKernel : ℤ
  /-- `sceKernelGetModuleInfo` is looked up in two places. -/
  moduleGetExportFunc : ℤ
  moduleGetExportFunc' : ℤ
  ksceKernelGetModuleInfo : ℤ
  sceAppMgrFindProcessInfoByPid : Bool
  sceAppMgrMountById : ShellMountIdArgs → Mounting

structure Answers where
  /-- The answers to the request with an id. -/
  kernel : ℕ → KernelAnswers
  sceAppMgrGameDataMount : CStr → Mounting
  /-- The answer for a point that is not mounted. -/
  sceAppMgrUmount : CStr → ℤ

structure Globals where
  pfsMountedPath : CStr
  pfsMountPoint : CStr
  readOnly : Bool
  mounted : List MountPoint
  deriving DecidableEq

/-! ## The functions -/

section Functions
variable {ε : Type}

/-- SceAppMgr answers a request. -/
def request (m : Mounting) : EStateM ε Globals ℤ := do
  modify fun s => { s with mounted := s.mounted ++ m.point.toList }
  pure m.res

def setMountPoint (name : CStr) : EStateM ε Globals PUnit :=
  modify fun s => { s with pfsMountPoint := name }

def ShellMountIdArgs.copied (args : ShellMountIdArgs) : ShellMountIdArgs :=
  { args with processTitleid := args.processTitleid.take 11, path := args.path.take 255 }

/-- `mount_point` is all zeros before the request. -/
def shellUserMountById (a : KernelAnswers) (args : ShellMountIdArgs) : EStateM ε Globals ℤ :=
  if a.taiGetModuleInfoForKernel < 0 then pure 0
  else if a.moduleGetExportFunc < 0 ∧ a.moduleGetExportFunc' < 0 then pure a.moduleGetExportFunc'
  else if a.ksceKernelGetModuleInfo < 0 then pure a.ksceKernelGetModuleInfo
  else if a.sceAppMgrFindProcessInfoByPid = false then pure (-1)
  else do
    let m := a.sceAppMgrMountById args.copied
    let res ← request m
    setMountPoint ((m.point.elim [] MountPoint.name).take 15)
    pure res

def knownPfsIds : List ℕ := [0x6E, 0x12E, 0x12F, 0x3ED]

def mountArgs (path : CStr) (id : ℕ) : ShellMountIdArgs where
  id
  processTitleid := bytes "VITATWEAK"
  path
  klicensee := List.replicate 0x10 0

/-- The loop of `pfsMount`. -/
def mountByIds (a : Answers) (path : CStr) : List ℕ → EStateM ε Globals (Option ℤ)
  | [] => pure none
  | id :: ids => do
    let res ← shellUserMountById (a.kernel id) (mountArgs path id)
    if 0 ≤ res then pure (some res) else mountByIds a path ids

def sceAppMgrGameDataMount (a : Answers) (path : CStr) : EStateM ε Globals ℤ := do
  let m := a.sceAppMgrGameDataMount path
  let res ← request m
  match m.point with
  | some point => setMountPoint point.name
  | none => pure ⟨⟩
  pure res

def pfsMount (a : Answers) (path : CStr) : EStateM ε Globals ℤ := do
  modify fun s => { s with readOnly := false }
  let res ← mountByIds a path knownPfsIds
  match res with
  | some res => pure res
  | none => do
    modify fun s => { s with readOnly := true }
    sceAppMgrGameDataMount a path

def sceAppMgrUmount (a : Answers) (name : CStr) : EStateM ε Globals ℤ := do
  let s ← get
  match s.mounted.find? (·.name = name) with
  | some point => do
    modify fun s => { s with mounted := s.mounted.erase point }
    pure 0
  | none => pure (a.sceAppMgrUmount name)

def pfsUmount (a : Answers) : EStateM ε Globals ℤ := do
  let s ← get
  if s.pfsMountPoint = [] then pure (-1)
  else do
    let res ← sceAppMgrUmount a s.pfsMountPoint
    if 0 ≤ res then modify fun s => { s with pfsMountPoint := [], pfsMountedPath := [] } else pure ⟨⟩
    pure res

end Functions

/-! ## What a request comes to -/

def KernelAnswers.outcome (a : KernelAnswers) (args : ShellMountIdArgs) : ℤ × Option MountPoint :=
  if a.taiGetModuleInfoForKernel < 0 then (0, none)
  else if a.moduleGetExportFunc < 0 ∧ a.moduleGetExportFunc' < 0 then (a.moduleGetExportFunc', none)
  else if a.ksceKernelGetModuleInfo < 0 then (a.ksceKernelGetModuleInfo, none)
  else if a.sceAppMgrFindProcessInfoByPid = false then (-1, none)
  else ((a.sceAppMgrMountById args.copied).res, (a.sceAppMgrMountById args.copied).point)

/-- The first id whose request is not refused decides, and without one `sceAppMgrGameDataMount`. -/
def Answers.outcome (a : Answers) (path : CStr) (ids : List ℕ) : ℤ × Option MountPoint :=
  ((ids.map fun id => (a.kernel id).outcome (mountArgs path id)).find? (0 ≤ ·.1)).getD
    ((a.sceAppMgrGameDataMount path).res, (a.sceAppMgrGameDataMount path).point)

/-- The mount point that `pfsMount` gets for the path, if it gets one. -/
def Answers.granted (a : Answers) (path : CStr) : Option MountPoint := (a.outcome path knownPfsIds).2

theorem Mounting.point_of_refused {m : Mounting} (h : m.res < 0) : m.point = none := by
  cases m with
  | refused code => rfl
  | granted code point => exact absurd h (not_lt.mpr (Int.natCast_nonneg code))

theorem outcome_of_refused {a : KernelAnswers} {args : ShellMountIdArgs} (h : (a.outcome args).1 < 0) :
    (a.outcome args).2 = none := by
  unfold KernelAnswers.outcome at h ⊢
  split_ifs at h ⊢
  · rfl
  · rfl
  · rfl
  · rfl
  · exact Mounting.point_of_refused h

theorem granted_of_refused {a : Answers} {path : CStr} {ids : List ℕ} (h : (a.outcome path ids).1 < 0) :
    (a.outcome path ids).2 = none := by
  induction ids with
  | nil => exact Mounting.point_of_refused h
  | cons id ids ih =>
    rw [Answers.outcome, List.map_cons, List.find?_cons] at h ⊢
    cases hres : decide (0 ≤ ((a.kernel id).outcome (mountArgs path id)).1) with
    | true =>
      rw [hres] at h
      exact absurd h (not_lt.mpr (of_decide_eq_true hres))
    | false =>
      rw [hres] at h
      exact ih h

/-! ## What is held -/

/-- The point is mounted and named by `pfs_mount_point`, and no other point is mounted. -/
structure Globals.Holds (s : Globals) (point : Option MountPoint) : Prop where
  name : s.pfsMountPoint = point.elim [] MountPoint.name
  mounted : s.mounted = point.toList

/-- `pfs_mount_point` is empty and nothing is mounted. -/
def Globals.Released (s : Globals) : Prop := s.Holds none

theorem Globals.Holds.released_iff {s : Globals} {point : Option MountPoint} (h : s.Holds point) :
    s.Released ↔ point = none := by
  constructor
  · intro hreleased
    have hmounted := hreleased.mounted.symm.trans h.mounted
    cases point with
    | none => rfl
    | some point => cases hmounted
  · rintro rfl
    exact h

theorem Globals.Released.append_mounted {s : Globals} (hs : s.Released) (points : List MountPoint) :
    s.mounted ++ points = points := by
  have hmounted : s.mounted = [] := hs.mounted
  rw [hmounted, List.nil_append]

section Run
variable {ε : Type}

theorem shellUserMountById_ok (a : KernelAnswers) (args : ShellMountIdArgs) (s : Globals) :
    ∃ t, (shellUserMountById a args : EStateM ε Globals ℤ) s = .ok (a.outcome args).1 t ∧
      (s.Released → t.Holds (a.outcome args).2) := by
  unfold shellUserMountById KernelAnswers.outcome
  split_ifs
  · exact ⟨s, rfl, id⟩
  · exact ⟨s, rfl, id⟩
  · exact ⟨s, rfl, id⟩
  · exact ⟨s, rfl, id⟩
  · refine ⟨_, rfl, fun hs => ⟨?_, ?_⟩⟩
    · apply List.take_of_length_le
      cases (a.sceAppMgrMountById args.copied).point with
      | none => exact Nat.zero_le _
      | some point => exact point.fits
    · exact hs.append_mounted _

theorem sceAppMgrGameDataMount_ok (a : Answers) (path : CStr) (s : Globals) :
    ∃ t, (sceAppMgrGameDataMount a path : EStateM ε Globals ℤ) s
        = .ok (a.sceAppMgrGameDataMount path).res t ∧
      (s.Released → t.Holds (a.sceAppMgrGameDataMount path).point) := by
  unfold sceAppMgrGameDataMount
  cases hm : a.sceAppMgrGameDataMount path with
  | refused code =>
    exact ⟨_, rfl, fun hs => ⟨hs.name, hs.append_mounted []⟩⟩
  | granted code point =>
    exact ⟨_, rfl, fun hs => ⟨rfl, hs.append_mounted [point]⟩⟩

/-- The loop and what `pfsMount` does behind it. -/
theorem mountByIds_ok (a : Answers) (path : CStr) (ids : List ℕ) (s : Globals) :
    ∃ res t, (mountByIds a path ids : EStateM ε Globals (Option ℤ)) s = .ok res t ∧
      match res with
      | some res => (a.outcome path ids).1 = res ∧ (s.Released → t.Holds (a.outcome path ids).2)
      | none => a.outcome path ids = a.outcome path [] ∧ (s.Released → t.Released) := by
  induction ids generalizing s with
  | nil => exact ⟨none, s, rfl, rfl, id⟩
  | cons id ids ih =>
    obtain ⟨t, ht, hholds⟩ := shellUserMountById_ok (ε := ε) (a.kernel id) (mountArgs path id) s
    rw [mountByIds, bind_of_ok ht]
    by_cases hres : 0 ≤ ((a.kernel id).outcome (mountArgs path id)).1
    · have houtcome : a.outcome path (id :: ids) = (a.kernel id).outcome (mountArgs path id) := by
        rw [Answers.outcome, List.map_cons, List.find?_cons_of_pos (by simpa using hres)]
        rfl
      rw [if_pos hres]
      refine ⟨some _, t, rfl, ?_⟩
      rw [houtcome]
      exact ⟨rfl, hholds⟩
    · have houtcome : a.outcome path (id :: ids) = a.outcome path ids := by
        rw [Answers.outcome, List.map_cons, List.find?_cons_of_neg (by simpa using hres)]
        rfl
      have hreleased : s.Released → t.Released := by
        intro hs
        have ht := hholds hs
        rw [outcome_of_refused (not_le.mp hres)] at ht
        exact ht
      obtain ⟨res, u, hu, hbehind⟩ := ih t
      rw [if_neg hres, houtcome]
      refine ⟨res, u, hu, ?_⟩
      cases res with
      | none => exact ⟨hbehind.1, fun hs => hbehind.2 (hreleased hs)⟩
      | some res => exact ⟨hbehind.1, fun hs => hbehind.2 (hreleased hs)⟩

/-- `pfsMount` returns; from a state without mount it leaves what it is given. -/
theorem pfsMount_ok (a : Answers) (path : CStr) (s : Globals) :
    ∃ t, (pfsMount a path : EStateM ε Globals ℤ) s = .ok (a.outcome path knownPfsIds).1 t ∧
      (s.Released → t.Holds (a.granted path)) := by
  obtain ⟨res, t, ht, hbehind⟩ := mountByIds_ok (ε := ε) a path knownPfsIds { s with readOnly := false }
  rw [Answers.granted, pfsMount, bind_apply, modify_apply]
  cases res with
  | some res =>
    obtain ⟨hres, hholds⟩ := hbehind
    refine ⟨t, ?_, fun hs => hholds ⟨hs.name, hs.mounted⟩⟩
    rw [hres]
    exact bind_of_ok ht
  | none =>
    obtain ⟨houtcome, hreleased⟩ := hbehind
    obtain ⟨u, hu, hholds⟩ :=
      sceAppMgrGameDataMount_ok (ε := ε) a path { t with readOnly := true }
    rw [houtcome]
    refine ⟨u, (bind_of_ok ht).trans hu, fun hs => ?_⟩
    have ht := hreleased ⟨hs.name, hs.mounted⟩
    exact hholds ⟨ht.name, ht.mounted⟩

theorem sceAppMgrUmount_ok (a : Answers) (name : CStr) (s : Globals) :
    ∃ res t, (sceAppMgrUmount a name : EStateM ε Globals ℤ) s = .ok res t ∧
      ∀ point, s.mounted = [point] → point.name = name → 0 ≤ res ∧ t.mounted = [] := by
  rw [sceAppMgrUmount, bind_apply, get_apply]
  dsimp only
  cases hfind : s.mounted.find? (·.name = name) with
  | none =>
    refine ⟨a.sceAppMgrUmount name, s, rfl, fun point hmounted hname => ?_⟩
    have hne := List.find?_eq_none.mp hfind point (by simp [hmounted])
    exact absurd (decide_eq_true hname) hne
  | some found =>
    refine ⟨0, _, rfl, fun point hmounted _ => ⟨le_rfl, ?_⟩⟩
    have hmem := List.mem_of_find?_eq_some hfind
    rw [hmounted, List.mem_singleton] at hmem
    show s.mounted.erase found = []
    rw [hmounted, hmem, List.erase_cons_head]

/-- `pfsUmount` releases what is held. -/
theorem pfsUmount_ok (a : Answers) (s : Globals) :
    ∃ res t, (pfsUmount a : EStateM ε Globals ℤ) s = .ok res t ∧
      ∀ point, s.Holds point → t.Released := by
  rw [pfsUmount, bind_apply, get_apply]
  dsimp only
  by_cases hname : s.pfsMountPoint = []
  · rw [if_pos hname]
    refine ⟨-1, s, rfl, fun point hs => ?_⟩
    cases point with
    | none => exact hs
    | some point => exact absurd (hs.name.symm.trans hname) point.nonempty
  · obtain ⟨res, t, ht, hreleased⟩ := sceAppMgrUmount_ok (ε := ε) a s.pfsMountPoint s
    rw [if_neg hname, bind_of_ok ht]
    by_cases hres : 0 ≤ res
    · rw [if_pos hres]
      refine ⟨res, _, rfl, fun point hs => ⟨rfl, ?_⟩⟩
      cases point with
      | none => exact absurd hs.name hname
      | some point => exact (hreleased point hs.mounted hs.name.symm).2
    · rw [if_neg hres]
      refine ⟨res, t, rfl, fun point hs => ?_⟩
      cases point with
      | none => exact absurd hs.name hname
      | some point => exact absurd (hreleased point hs.mounted hs.name.symm).1 hres

end Run

end VitaConnect.Pfs
