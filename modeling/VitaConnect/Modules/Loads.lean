import VitaConnect.CString.Basic
import VitaConnect.Program.Ledger
import VitaConnect.Program.History

/-! # Loading and unloading the kernel modules (`modules/kernel`, `modules/patch`, `modules/usbdevice`)

`module_start` patches other modules and keeps the handles of its patches in static variables;
`module_stop` gives back the handles that are not negative. `module_start` answers
`SCE_KERNEL_START_SUCCESS` however far it has come, so a module that has patched nothing is loaded as well.
A release takes the patch of its handle away.
-/
namespace VitaConnect.Modules
open CString Program
set_option autoImplicit false

/-! ## The calls -/

inductive Patch
  /-- `taiInjectDataForKernel` in segment 0 -/
  | inject (modid : ℤ) (offset : ℕ) (data : List Byte)
  | hookExport (modname : CStr) (libnid funcnid : ℕ)
  | hookImport (modname : CStr) (libnid funcnid : ℕ)

inductive Call
  | moduleGetOffset (modid : ℤ) (offset : ℕ)
  /-- A patch with the answer: its handle, or an error. -/
  | install (patch : Patch) (uid : ℤ)
  | loadStart (path : CStr) (modid : ℤ)
  | stopCurrent (bus : ℕ)
  | release (uid : ℤ)

structure ModuleInfo where
  moduleNid : ℕ
  modid : ℤ

/-- The calls of `module_start` and the static variables behind it. -/
structure Started where
  calls : List Call
  hooks : List ℤ

/-! ## `modules/kernel/main.c` -/

structure KernelAnswers where
  info : Option ModuleInfo
  tmp1 : ℤ
  tmp2 : ℤ
  modid : ℤ
  hookid : ℤ

/-- Where `sceIoFindMountPoint` stands, by the version of `SceIofilemgr`. -/
def findMountPoint (nid : ℕ) : Option ℕ :=
  if nid ∈ [0x7A1DBDE6, 0xEF58597E, 0x9642948C] then some 0x138C1
  else if nid = 0xE923F19C then some 0x138D5
  else if nid ∈ [0x5FC2B87D, 0xA96ACE9D, 0x3347A95F, 0x90DA33DE] then some 0x182F5
  else if nid ∈ [0xF16E72C7, 0x81A49C2B, 0xF2D59083, 0x9C16D40A, 0xF7794A6C, 0x796DAFAF] then some 0x18735
  else none

def isSafeModeExport : Patch := .hookExport (bytes "SceSysmem") 0x2ED7F97A 0x834439A7

def isDolceExport : Patch := .hookExport (bytes "SceSysmem") 0xFD00C69A 0x71608CA3

def isSafeModeImport : Patch := .hookImport (bytes "SceUsbServ") 0x2ED7F97A 0x834439A7

def umassPath : CStr := bytes "ur0:QuickMenuReborn/VitaConnectEverywhere/umass.skprx"

/-- `hookid` is -1 until `SceUsbServ` is patched. -/
def kernelStart (a : KernelAnswers) : Started :=
  match a.info with
  | none => ⟨[], [-1]⟩
  | some info =>
    match findMountPoint info.moduleNid with
    | none => ⟨[], [-1]⟩
    | some offset =>
      let calls := [.moduleGetOffset info.modid offset, .install isSafeModeExport a.tmp1]
      if a.tmp1 < 0 then ⟨calls, [-1]⟩
      else
        let calls := calls ++ [.install isDolceExport a.tmp2]
        if a.tmp2 < 0 then ⟨calls, [-1]⟩
        else
          let calls := calls ++ [.loadStart umassPath a.modid, .release a.tmp1, .release a.tmp2]
          if a.modid < 0 then ⟨calls, [-1]⟩
          else ⟨calls ++ [.install isSafeModeImport a.hookid], [a.hookid]⟩

/-! ## `modules/patch/main.c` -/

structure PatchAnswers where
  info : Option ModuleInfo
  hooks0 : ℤ
  hooks1 : ℤ

/-- Where the check of the memory card stands, by the version of `SceAppMgr`. -/
def remountChecks (nid : ℕ) : Option (ℕ × ℕ) :=
  if nid ∈ [0x94CEFE4B, 0xDFBC288C, 0xDBB29DB7, 0xB5F8EA7C, 0x23B967C5, 0x1C9879D6] then some (0xB338, 0xB368)
  else if nid ∈ [0x54E2E984, 0xC3C538DE] then some (0xB344, 0xB374)
  else if nid ∈ [0x321E4852, 0x700DA0CD, 0xF7846B4E, 0xA8E80BA8, 0xB299D195, 0x30007BD3] then
    some (0xB34C, 0xB37C)
  else none

/-- `nop_nop_opcode`, as it lies in memory. -/
def nopNopOpcode : List Byte := [0x00, 0xBF, 0x00, 0xBF]

/-- `hooks` is 0 where nothing is patched. -/
def patchStart (a : PatchAnswers) : Started :=
  match a.info with
  | none => ⟨[], [0, 0]⟩
  | some info =>
    match remountChecks info.moduleNid with
    | none => ⟨[], [0, 0]⟩
    | some (offset, offset') =>
      ⟨[.install (.inject info.modid offset nopNopOpcode) a.hooks0,
        .install (.inject info.modid offset' (nopNopOpcode.take 2)) a.hooks1], [a.hooks0, a.hooks1]⟩

/-! ## `modules/usbdevice/main.c` -/

structure UsbDeviceAnswers where
  info : Option ModuleInfo
  hooks0 : ℤ
  hooks1 : ℤ
  hooks2 : ℤ

def usbDeviceStart (a : UsbDeviceAnswers) : Started :=
  match a.info with
  | none => ⟨[], [0, 0, 0]⟩
  | some info =>
    ⟨[.install (.inject info.modid 0x1738 (List.replicate 0x6E 0)) a.hooks0,
      .install (.hookImport (bytes "SceUsbstorVStorDriver") 0x40FD29C7 0x75192972) a.hooks1,
      .install (.hookImport (bytes "SceUsbstorVStorDriver") 0x40FD29C7 0xE17EFC03) a.hooks2,
      .stopCurrent 2], [a.hooks0, a.hooks1, a.hooks2]⟩

/-! ## The system -/

inductive Module
  | kernel | patch | usbDevice
  deriving DecidableEq

/-- The three functions go through their variables from the last to the first. -/
def moduleStop (hooks : List ℤ) : List Call := ((hooks.filter (0 ≤ ·)).reverse).map .release

structure System where
  /-- The static variables of the modules that are loaded. -/
  hooks : Module → Option (List ℤ)
  calls : List Call

def System.boot : System := ⟨fun _ => none, []⟩

inductive Event
  | kernel (a : KernelAnswers)
  | patch (a : PatchAnswers)
  | usbDevice (a : UsbDeviceAnswers)
  | stop (m : Module)

def System.start (m : Module) (r : Started) (s : System) : System :=
  match s.hooks m with
  | none => ⟨Function.update s.hooks m (some r.hooks), s.calls ++ r.calls⟩
  | some _ => s

def System.stop (m : Module) (s : System) : System :=
  match s.hooks m with
  | none => s
  | some hooks => ⟨Function.update s.hooks m none, s.calls ++ moduleStop hooks⟩

def System.step (s : System) : Event → System
  | .kernel a => s.start .kernel (kernelStart a)
  | .patch a => s.start .patch (patchStart a)
  | .usbDevice a => s.start .usbDevice (usbDeviceStart a)
  | .stop m => s.stop m

/-! ## Handles -/

def acquires : Call → Option ℤ
  | .install _ uid => if 0 ≤ uid then some uid else none
  | _ => none

def releases : Call → Option ℤ
  | .release uid => some uid
  | _ => none

/-- The patches that stand, by their handles. -/
def handles : Ledger Call ℤ where
  acquires := acquires
  releases := releases
  uses _ := none
  apart call k h := by
    cases call <;> simp_all [acquires, releases]

/-- The handles that are given are positive, and none is given twice before it is released. -/
def Fresh (calls : List Call) : Prop :=
  ∀ i < calls.length, ∀ call ∈ calls[i]?, ∀ uid ∈ acquires call, 0 < uid ∧ handles.net uid (calls.take i) = 0

/-- The handles that `module_stop` will release. -/
def keeps (hooks : Option (List ℤ)) : List ℤ := (hooks.getD []).filter (0 ≤ ·)

def System.kept (s : System) (uid : ℤ) : ℕ :=
  (keeps (s.hooks .kernel)).count uid + (keeps (s.hooks .patch)).count uid +
    (keeps (s.hooks .usbDevice)).count uid

/-- Every release was of a patch that stood, and the patches that stand are the ones that the loaded modules will
release when they stop. -/
structure System.Owned (s : System) : Prop where
  sound : handles.Sound s.calls
  kept : ∀ uid, handles.net uid s.calls = s.kept uid

/-! ## When a module comes to its patches -/

/-- The second hook fails behind the first one, which stays. -/
def KernelAnswers.Leaks (a : KernelAnswers) : Prop :=
  (∃ info ∈ a.info, (findMountPoint info.moduleNid).isSome) ∧ 0 ≤ a.tmp1 ∧ a.tmp2 < 0

def PatchAnswers.Patches (a : PatchAnswers) : Prop := ∃ info ∈ a.info, (remountChecks info.moduleNid).isSome

def UsbDeviceAnswers.Patches (a : UsbDeviceAnswers) : Prop := a.info.isSome

/-- The module that starts leaves no patch behind, and has patched what its variables stand for. -/
def Patches (s : System) : Event → Prop
  | .kernel a => s.hooks .kernel = none → ¬ a.Leaks
  | .patch a => s.hooks .patch = none → a.Patches
  | .usbDevice a => s.hooks .usbDevice = none → a.Patches
  | .stop _ => True

section Ledger
variable {t calls : List Call} {uid : ℤ}

theorem Fresh.left (h : Fresh (t ++ calls)) : Fresh t := by
  intro i hi call hcall uid huid
  have hi' : i < (t ++ calls).length := by
    rw [List.length_append]
    omega
  have hfresh := h i hi' call (by rwa [List.getElem?_append_left hi]) uid huid
  rwa [List.take_append_of_le_length hi.le] at hfresh

theorem Fresh.given {call : Call} (h : Fresh (t ++ call :: calls)) (huid : acquires call = some uid) :
    0 < uid ∧ handles.net uid t = 0 := by
  have hfresh := h t.length (by simp) call (by simp) uid huid
  rwa [List.take_left] at hfresh

theorem handles_gives : handles.Gives Call.release := ⟨fun _ => rfl, fun _ => rfl, fun _ => rfl⟩

@[simp] theorem change_moduleGetOffset (modid : ℤ) (offset : ℕ) :
    handles.change uid (.moduleGetOffset modid offset) = 0 := rfl

@[simp] theorem change_loadStart (path : CStr) (modid : ℤ) :
    handles.change uid (.loadStart path modid) = 0 := rfl

@[simp] theorem change_stopCurrent (bus : ℕ) : handles.change uid (.stopCurrent bus) = 0 := rfl

@[simp] theorem change_install (patch : Patch) (k : ℤ) :
    handles.change uid (.install patch k) = ([k].filter (0 ≤ ·)).count uid := by
  by_cases hk : 0 ≤ k <;> simp [Ledger.change, handles, acquires, releases, hk, List.count_singleton]

@[simp] theorem change_release (k : ℤ) : handles.change uid (.release k) = -([k].count uid : ℤ) := by
  by_cases hk : k = uid <;> simp [Ledger.change, handles, acquires, releases, hk]

theorem net_installs (installs : List (Patch × ℤ)) :
    handles.net uid (installs.map fun p => .install p.1 p.2)
      = (keeps (some (installs.map Prod.snd))).count uid := by
  induction installs with
  | nil => rfl
  | cons p installs ih =>
    have hsplit : keeps (some ((p :: installs).map Prod.snd))
        = [p.2].filter (0 ≤ ·) ++ keeps (some (installs.map Prod.snd)) := List.filter_append [p.2] _
    rw [List.map_cons, Ledger.net_cons, ih, change_install, hsplit, List.count_append]
    push_cast
    rfl

theorem net_idle (h : ∀ call ∈ calls, acquires call = none ∧ releases call = none) :
    handles.net uid calls = 0 := by
  induction calls with
  | nil => rfl
  | cons call calls ih =>
    obtain ⟨⟨ha, hr⟩, hrest⟩ := List.forall_mem_cons.mp h
    rw [Ledger.net_cons, ih hrest]
    simp [Ledger.change, handles, ha, hr]

/-- Calls that release nothing keep to what is free. -/
theorem sound_installs (h : handles.Sound t) (hcalls : ∀ call ∈ calls, releases call = none)
    (hfresh : Fresh (t ++ calls)) : handles.Sound (t ++ calls) := by
  induction calls generalizing t with
  | nil => simpa using h
  | cons call calls ih =>
    obtain ⟨hcall, hrest⟩ := List.forall_mem_cons.mp hcalls
    have hsound : handles.Sound (t ++ [call]) := by
      cases huid : acquires call with
      | none => exact h.neutral huid hcall rfl
      | some uid => exact h.acquire huid hcall rfl (hfresh.given huid).2
    rw [← List.singleton_append, ← List.append_assoc] at hfresh ⊢
    exact ih hsound hrest hfresh

end Ledger

/-! ## One start -/

/-- How far the module of the kernel comes: to no patch, to the one that it leaves behind, or to its last patch,
which may fail. -/
theorem kernelStart_cases (a : KernelAnswers) :
    (¬ a.Leaks ∧ ∃ calls, kernelStart a = ⟨calls, [-1]⟩ ∧
      ∀ call ∈ calls, acquires call = none ∧ releases call = none) ∨
    (a.Leaks ∧ ∃ modid offset, kernelStart a =
      ⟨[.moduleGetOffset modid offset, .install isSafeModeExport a.tmp1, .install isDolceExport a.tmp2], [-1]⟩) ∨
    (¬ a.Leaks ∧ 0 ≤ a.tmp1 ∧ 0 ≤ a.tmp2 ∧ ∃ modid offset last hookid, kernelStart a =
      ⟨[.moduleGetOffset modid offset, .install isSafeModeExport a.tmp1, .install isDolceExport a.tmp2,
        .loadStart umassPath a.modid] ++ [a.tmp1, a.tmp2].map .release ++ last, [hookid]⟩ ∧
      (last = [] ∧ hookid = -1 ∨ last = [.install isSafeModeImport hookid])) := by
  unfold KernelAnswers.Leaks
  rcases hinfo : a.info with _ | info
  · exact .inl ⟨by simp, [], by simp [kernelStart, hinfo], by simp⟩
  rcases hoffset : findMountPoint info.moduleNid with _ | offset
  · exact .inl ⟨by simp [hoffset], [], by simp [kernelStart, hinfo, hoffset], by simp⟩
  simp only [kernelStart, hinfo, hoffset]
  by_cases htmp1 : a.tmp1 < 0
  · refine .inl ⟨by omega, _, if_pos htmp1, ?_⟩
    simp [acquires, releases, htmp1]
  by_cases htmp2 : a.tmp2 < 0
  · exact .inr (.inl ⟨⟨by simp [hoffset], by omega, htmp2⟩, info.modid, offset, by simp [htmp1, htmp2]⟩)
  refine .inr (.inr ⟨by omega, by omega, by omega, info.modid, offset, ?_⟩)
  by_cases hmodid : a.modid < 0
  · exact ⟨[], -1, by simp [htmp1, htmp2, hmodid], .inl ⟨rfl, rfl⟩⟩
  · exact ⟨_, a.hookid, by simp [htmp1, htmp2, hmodid], .inr rfl⟩

section Start
variable {t : List Call} {s : System} {m : Module} {r : Started}

theorem kernelStart_sound (a : KernelAnswers) (h : handles.Sound t)
    (hfresh : Fresh (t ++ (kernelStart a).calls)) : handles.Sound (t ++ (kernelStart a).calls) := by
  rcases kernelStart_cases a with ⟨-, calls, hcalls, hidle⟩ | ⟨-, modid, offset, hcalls⟩ |
      ⟨-, htmp1, htmp2, modid, offset, last, hookid, hcalls, hlast⟩
  · rw [hcalls] at hfresh ⊢
    exact sound_installs h (fun call hcall => (hidle call hcall).2) hfresh
  · rw [hcalls] at hfresh ⊢
    exact sound_installs h (by simp [releases]) hfresh
  · rw [hcalls] at hfresh ⊢
    simp only [← List.append_assoc] at hfresh ⊢
    have hfirst := sound_installs h (by simp [releases]) hfresh.left.left
    refine sound_installs (hfirst.releaseAll handles_gives fun uid => ?_) ?_ hfresh
    · -- the two hooks stand, whatever stood before them
      have hheld := (h.held uid t (List.prefix_refl t)).1
      simp [Ledger.net_append, Ledger.net_cons, htmp1, htmp2, List.count_cons]
      omega
    · rcases hlast with ⟨rfl, -⟩ | rfl <;> simp [releases]

theorem patchStart_sound (a : PatchAnswers) (h : handles.Sound t)
    (hfresh : Fresh (t ++ (patchStart a).calls)) : handles.Sound (t ++ (patchStart a).calls) := by
  refine sound_installs h ?_ hfresh
  unfold patchStart
  split
  · simp
  · split <;> simp [releases]

theorem usbDeviceStart_sound (a : UsbDeviceAnswers) (h : handles.Sound t)
    (hfresh : Fresh (t ++ (usbDeviceStart a).calls)) : handles.Sound (t ++ (usbDeviceStart a).calls) := by
  refine sound_installs h ?_ hfresh
  unfold usbDeviceStart
  split <;> simp [releases]

/-- A start keeps the account when what it leaves standing is what its variables stand for. -/
theorem start_owned_iff (hs : s.Owned) (hm : s.hooks m = none) (hsound : handles.Sound (s.calls ++ r.calls)) :
    (s.start m r).Owned ↔ ∀ uid, handles.net uid r.calls = (keeps (some r.hooks)).count uid := by
  have hstart : s.start m r = ⟨Function.update s.hooks m (some r.hooks), s.calls ++ r.calls⟩ := by
    simp [System.start, hm]
  have hkept : ∀ uid, (s.start m r).kept uid = s.kept uid + (keeps (some r.hooks)).count uid := by
    intro uid
    have hnone : keeps (s.hooks m) = [] := by rw [hm]; rfl
    rw [hstart]
    cases m <;> simp [System.kept, hnone] <;> omega
  have hnet : ∀ uid, handles.net uid (s.start m r).calls = s.kept uid + handles.net uid r.calls := by
    intro uid
    rw [hstart, Ledger.net_append, hs.kept]
  constructor
  · intro h uid
    have huid := h.kept uid
    rw [hnet, hkept] at huid
    omega
  · intro h
    refine ⟨by rw [hstart]; exact hsound, fun uid => ?_⟩
    rw [hnet, hkept, h uid]
    push_cast
    rfl

theorem kernelStart_owned_iff (a : KernelAnswers) (hs : s.Owned) (hm : s.hooks .kernel = none)
    (hfresh : Fresh (s.start .kernel (kernelStart a)).calls) :
    (s.start .kernel (kernelStart a)).Owned ↔ ¬ a.Leaks := by
  have hcalls : (s.start .kernel (kernelStart a)).calls = s.calls ++ (kernelStart a).calls := by
    simp [System.start, hm]
  rw [hcalls] at hfresh
  rw [start_owned_iff hs hm (kernelStart_sound a hs.sound hfresh)]
  rcases kernelStart_cases a with ⟨hleaks, calls, hcalls, hidle⟩ | ⟨hleaks, modid, offset, hcalls⟩ |
      ⟨hleaks, htmp1, htmp2, modid, offset, last, hookid, hcalls, hlast⟩
  · rw [hcalls]
    exact iff_of_true (fun uid => by simp [net_idle hidle, keeps]) hleaks
  · rw [hcalls]
    refine iff_of_false (fun h => ?_) (not_not.mpr hleaks)
    have htmp1 := h a.tmp1
    simp [Ledger.net_cons, keeps, hleaks.2.1, hleaks.2.2] at htmp1
  · rw [hcalls]
    refine iff_of_true (fun uid => ?_) hleaks
    rcases hlast with ⟨rfl, rfl⟩ | rfl <;>
      simp [Ledger.net_cons, keeps, htmp1, htmp2]
    all_goals omega

theorem patchStart_owned_iff (a : PatchAnswers) (hs : s.Owned) (hm : s.hooks .patch = none)
    (hfresh : Fresh (s.start .patch (patchStart a)).calls) :
    (s.start .patch (patchStart a)).Owned ↔ a.Patches := by
  have hcalls : (s.start .patch (patchStart a)).calls = s.calls ++ (patchStart a).calls := by
    simp [System.start, hm]
  rw [hcalls] at hfresh
  rw [start_owned_iff hs hm (patchStart_sound a hs.sound hfresh)]
  unfold PatchAnswers.Patches
  rcases hinfo : a.info with _ | info
  · refine iff_of_false (fun h => ?_) (by simp)
    simpa [patchStart, hinfo, keeps] using h 0
  rcases hchecks : remountChecks info.moduleNid with _ | ⟨offset, offset'⟩
  · refine iff_of_false (fun h => ?_) (by simp [hchecks])
    simpa [patchStart, hinfo, hchecks, keeps] using h 0
  · refine iff_of_true (fun uid => ?_) (by simp [hchecks])
    simp only [patchStart, hinfo, hchecks]
    exact net_installs [(.inject info.modid offset nopNopOpcode, a.hooks0),
      (.inject info.modid offset' (nopNopOpcode.take 2), a.hooks1)]

theorem usbDeviceStart_owned_iff (a : UsbDeviceAnswers) (hs : s.Owned) (hm : s.hooks .usbDevice = none)
    (hfresh : Fresh (s.start .usbDevice (usbDeviceStart a)).calls) :
    (s.start .usbDevice (usbDeviceStart a)).Owned ↔ a.Patches := by
  have hcalls : (s.start .usbDevice (usbDeviceStart a)).calls = s.calls ++ (usbDeviceStart a).calls := by
    simp [System.start, hm]
  rw [hcalls] at hfresh
  rw [start_owned_iff hs hm (usbDeviceStart_sound a hs.sound hfresh)]
  unfold UsbDeviceAnswers.Patches
  rcases hinfo : a.info with _ | info
  · refine iff_of_false (fun h => ?_) (by simp)
    simpa [usbDeviceStart, hinfo, keeps] using h 0
  · refine iff_of_true (fun uid => ?_) rfl
    simp only [usbDeviceStart, hinfo]
    refine Eq.trans ?_ (net_installs [(.inject info.modid 0x1738 (List.replicate 0x6E 0), a.hooks0),
      (.hookImport (bytes "SceUsbstorVStorDriver") 0x40FD29C7 0x75192972, a.hooks1),
      (.hookImport (bytes "SceUsbstorVStorDriver") 0x40FD29C7 0xE17EFC03, a.hooks2)])
    simp [Ledger.net_cons]

end Start

/-! ## Runs -/

section Runs
variable {s : System}

theorem boot_owned : System.boot.Owned := ⟨Ledger.sound_nil, fun _ => rfl⟩

/-- A stop releases what the account says. -/
theorem stop_owned (m : Module) (hs : s.Owned) : (s.stop m).Owned := by
  rcases hm : s.hooks m with _ | hooks
  · simpa [System.stop, hm] using hs
  have hstop : s.stop m = ⟨Function.update s.hooks m none, s.calls ++ moduleStop hooks⟩ := by
    simp [System.stop, hm]
  have hkept : ∀ uid, s.kept uid = (s.stop m).kept uid + (keeps (some hooks)).reverse.count uid := by
    intro uid
    rw [hstop, List.count_reverse]
    cases m <;> simp [System.kept, hm, keeps] <;> omega
  have hcalls : (s.stop m).calls = s.calls ++ (keeps (some hooks)).reverse.map .release := by
    rw [hstop]
    rfl
  constructor
  · rw [hcalls]
    refine hs.sound.releaseAll handles_gives fun uid => ?_
    rw [hs.kept, hkept]
    push_cast
    exact Int.le_add_of_nonneg_left (Int.natCast_nonneg _)
  · intro uid
    rw [hcalls, Ledger.net_append, handles_gives.net, hs.kept, hkept]
    push_cast
    ring

/-- A module that is loaded is not started again. -/
theorem start_iff {m : Module} {r : Started} {C : Prop} (hs : s.Owned)
    (h : s.hooks m = none → ((s.start m r).Owned ↔ C)) : (s.start m r).Owned ↔ (s.hooks m = none → C) := by
  rcases hm : s.hooks m with _ | hooks
  · simpa using h hm
  · have hsame : s.start m r = s := by simp [System.start, hm]
    rw [hsame]
    exact iff_of_true hs (by simp)

theorem step_owned_iff (e : Event) (hs : s.Owned) (hfresh : Fresh (s.step e).calls) :
    (s.step e).Owned ↔ Patches s e := by
  cases e with
  | kernel a => exact start_iff hs fun hm => kernelStart_owned_iff a hs hm hfresh
  | patch a => exact start_iff hs fun hm => patchStart_owned_iff a hs hm hfresh
  | usbDevice a => exact start_iff hs fun hm => usbDeviceStart_owned_iff a hs hm hfresh
  | stop m => exact iff_of_true (stop_owned m hs) trivial

theorem step_calls (s : System) (e : Event) : s.calls <+: (s.step e).calls := by
  have hstart : ∀ m r, s.calls <+: (s.start m r).calls := by
    intro m r
    unfold System.start
    split
    · exact List.prefix_append _ _
    · exact List.prefix_refl _
  cases e with
  | kernel a => exact hstart .kernel _
  | patch a => exact hstart .patch _
  | usbDevice a => exact hstart .usbDevice _
  | stop m =>
    show s.calls <+: (s.stop m).calls
    unfold System.stop
    split
    · exact List.prefix_refl _
    · exact List.prefix_append _ _

theorem replay_calls (s : System) (events : List Event) : s.calls <+: (replay System.step s events).calls := by
  induction events generalizing s with
  | nil => exact List.prefix_refl _
  | cons e events ih => exact (step_calls s e).trans (ih (s.step e))

theorem eachStep_fresh {events : List Event} (hfresh : Fresh (replay System.step s events).calls) :
    EachStep (fun s e => Fresh (s.step e).calls) System.step s events := by
  rintro p e ⟨rest, rfl⟩
  obtain ⟨calls, hcalls⟩ := replay_calls (replay System.step s (p ++ [e])) rest
  rw [replay_append, ← hcalls, replay_snoc] at hfresh
  exact hfresh.left

end Runs

/-- **What stands is what will be given back.** In every run of starts and stops the releases are of patches that
stand, and the patches that stand are the ones the loaded modules hold, exactly when no start of the kernel module
fails between its two hooks, and each start of the two others comes to its patches. -/
theorem modules_owned_iff (events : List Event) (hfresh : Fresh (replay System.step .boot events).calls) :
    AtEveryPoint System.Owned System.step .boot events ↔ EachStep Patches System.step .boot events :=
  atEveryPoint_iff_eachStep_of (fun _ e hs hfresh => step_owned_iff e hs hfresh) boot_owned
    (eachStep_fresh hfresh)

/-- A firmware that `modules/patch` does not know, with a patch of the driver at the handle 1. -/
def unknownFirmware : List Event :=
  [.usbDevice ⟨some ⟨0, 5⟩, 1, 2, 3⟩, .patch ⟨some ⟨0, 6⟩, 0, 0⟩, .stop .usbDevice]

theorem modules_owned_unknown : ¬ AtEveryPoint System.Owned System.step .boot unknownFirmware := by
  intro howned
  have hsteps := (modules_owned_iff unknownFirmware (by unfold Fresh; decide)).mp howned
  have hpatches := hsteps [.usbDevice ⟨some ⟨0, 5⟩, 1, 2, 3⟩] (.patch ⟨some ⟨0, 6⟩, 0, 0⟩) ⟨_, rfl⟩ rfl
  revert hpatches
  unfold PatchAnswers.Patches
  decide

end VitaConnect.Modules
