import VitaConnect.CString.Basic
import VitaConnect.Program.History

/-! # The devices behind `ux0:` and `uma0:` (`modules/kernel/main.c`, the mount functions of `utils.c`,
`mountOthersPartition` and the USB button)

The kernel module keeps a device for each of the two mount points, and redirecting one of them lets the mount
point refer to the module's device. The name it is asked for is copied into 64 bytes, 63 of them at most. Every
mount function answers 0, whatever its calls have answered.
-/
namespace VitaConnect.Modes
open CString Program
set_option autoImplicit false

/-! ## The kernel module -/

/-- What `dev` of a mount point refers to: a device of the system with its block device, or a device of the
module. -/
inductive DeviceRef
  | system (blkdev : Option CStr)
  | ux0Dev
  | uma0Dev
  deriving DecidableEq

/-- The fields of `SceIoMountPoint` that the module uses; `none` is NULL. -/
structure SceIoMountPoint where
  dev : Option DeviceRef
  dev2 : Option DeviceRef
  deriving DecidableEq

structure Kernel where
  /-- `sceIoFindMountPoint` -/
  findMountPoint : ℕ → Option SceIoMountPoint
  ux0Blkdev : CStr
  ux0Blkdev2 : CStr
  uma0Blkdev : CStr
  uma0Blkdev2 : CStr

/-- `MOUNT_POINT_ID`, `ux0:`. -/
def mountPointId : ℕ := 0x800

/-- `MOUNT_POINT_ID2`, `uma0:`. -/
def mountPointId2 : ℕ := 0xF00

/-- `ksceKernelStrncpyUserToKernel(dst, src, 63)`, read as a string; `behind` is the string at the last byte
of `dst`, which is not written. -/
def strncpyUserToKernel (behind src : CStr) : CStr :=
  if src.length < 63 then src else src.take 63 ++ behind

def Kernel.blkdev (k : Kernel) : DeviceRef → Option CStr
  | .system blkdev => blkdev
  | .ux0Dev => some k.ux0Blkdev
  | .uma0Dev => some k.uma0Blkdev

/-- The second name is copied and not compared. -/
def isRedirected (id : ℕ) (behind blkdev : CStr) (k : Kernel) : Bool :=
  match k.findMountPoint id with
  | none => false
  | some mount =>
    match mount.dev.bind k.blkdev with
    | none => false
    | some name => name == strncpyUserToKernel behind blkdev

def shellKernelIsUx0Redirected (behind blkdev _blkdev2 : CStr) (k : Kernel) : Bool :=
  isRedirected mountPointId behind blkdev k

def setDev (id : ℕ) (dev : DeviceRef) (k : Kernel) : Kernel :=
  { k with findMountPoint := Function.update k.findMountPoint id (some ⟨some dev, some dev⟩) }

/-- The last byte of the static arrays is never written and stays NUL. -/
def shellKernelRedirectUx0 (blkdev blkdev2 : CStr) (k : Kernel) : ℤ × Kernel :=
  if k.findMountPoint mountPointId = none then (-1, k)
  else (0, setDev mountPointId .ux0Dev { k with
    ux0Blkdev := strncpyUserToKernel [] blkdev, ux0Blkdev2 := strncpyUserToKernel [] blkdev2 })

def shellKernelRedirectUma0 (blkdev blkdev2 : CStr) (k : Kernel) : ℤ × Kernel :=
  if k.findMountPoint mountPointId2 = none then (-1, k)
  else (0, setDev mountPointId2 .uma0Dev { k with
    uma0Blkdev := strncpyUserToKernel [] blkdev, uma0Blkdev2 := strncpyUserToKernel [] blkdev2 })

/-! ## The mount functions -/

inductive VshCall
  | destroyOtherApp
  | umount (id flag : ℕ)
  | mount (id permission : ℕ)
  deriving DecidableEq

def remount (id : ℕ) : List VshCall := [.umount id 0, .umount id 1, .mount id 0]

def gamecard : CStr := bytes "sdstor0:gcd-lp-ign-entire"

def usb : CStr := bytes "sdstor0:uma-pp-act-a"

def usb2 : CStr := bytes "sdstor0:uma-lp-act-entire"

def imc : CStr := bytes "sdstor0:int-lp-ign-userext"

def xmc : CStr := bytes "sdstor0:xmc-lp-ign-userext"

/-- What a mount function answers, with the kernel behind it and its calls. -/
abbrev Mounting := ℤ × Kernel × List VshCall

def mountGamecardUx0 (k : Kernel) : Mounting :=
  (0, (shellKernelRedirectUx0 gamecard gamecard k).2,
    .destroyOtherApp :: .umount mountPointId2 0 :: remount mountPointId)

def mountGamecardUma0 (k : Kernel) : Mounting :=
  (0, (shellKernelRedirectUma0 gamecard gamecard k).2, .destroyOtherApp :: remount mountPointId2)

def mountUsbUma0 (k : Kernel) : Mounting :=
  (0, (shellKernelRedirectUma0 usb usb2 k).2, .destroyOtherApp :: remount mountPointId2)

def mountImcUx0 (k : Kernel) : Mounting :=
  (0, (shellKernelRedirectUx0 imc imc k).2,
    .destroyOtherApp :: .umount mountPointId 0 :: remount mountPointId)

def mountXmcUx0 (k : Kernel) : Mounting :=
  (0, (shellKernelRedirectUx0 xmc xmc k).2,
    .destroyOtherApp :: .umount mountPointId 0 :: remount mountPointId)

def mountUsbUx0 (k : Kernel) : Mounting :=
  (0, (shellKernelRedirectUx0 usb usb2 k).2,
    .destroyOtherApp :: .umount mountPointId2 0 :: remount mountPointId)

/-! ## The button -/

inductive UsbLabel
  | mountUsb | umountUsb
  deriving DecidableEq

structure UsbButton where
  kernel : Kernel
  kernelModid : ℤ
  userModid : ℤ
  refreshOnOff : Bool
  runUsb : ℤ
  /-- The text of the button, once a handler has set it. -/
  label : Option UsbLabel
  calls : List VshCall
  /-- The message threads that have been started. -/
  messages : ℕ

/-- The answers of `checkFileExist` and `checkFolderExist`. -/
structure Probes where
  file : CStr → Bool
  folder : CStr → Bool

/-- What the system answers while the button is handled: `again` is the second look at the USB device,
`others` the look of `mountOthersPartition`. -/
structure UsbAnswers where
  behind : CStr
  first : Probes
  again : Probes
  others : Probes
  mountUma0 : ℤ
  mountXmc0 : ℤ
  mountImc0 : ℤ

/-- A step of `mountOthersPartition`: mounts `id` and leaves a code. -/
def mountPartition (id : ℕ) (answer mounted failed : ℤ) (s : UsbButton) : UsbButton :=
  { s with
    runUsb := if 0 < answer then mounted else failed
    calls := s.calls ++ [.mount id 2] }

/-- Mounts something with one of the mount functions and leaves a code. -/
def mountWith (mounting : Kernel → Mounting) (mounted failed : ℤ) (s : UsbButton) : UsbButton :=
  let r := mounting s.kernel
  { s with
    kernel := r.2.1
    runUsb := if 0 ≤ r.1 then mounted else failed
    calls := s.calls ++ r.2.2 }

def mountOthersPartition (mount : ℕ) (a : UsbAnswers) (s : UsbButton) : UsbButton :=
  if mount = 1 then
    let s := if a.others.file gamecard then mountWith mountGamecardUma0 5 6 s else s
    let s := if a.others.file xmc ∨ ¬ a.others.folder (bytes "xmc0:") then
      mountPartition 0xE00 a.mountXmc0 7 8 s else s
    if a.others.file imc ∨ ¬ a.others.folder (bytes "imc0:") then
      mountPartition 0xD00 a.mountImc0 9 10 s else s
  else if mount = 2 then
    let s := mountWith mountUsbUma0 5 6 s
    let s := if a.others.file xmc ∧ ¬ a.others.folder (bytes "xmc0:") then
      mountPartition 0xE00 a.mountXmc0 7 8 s else s
    if a.others.file imc ∧ ¬ a.others.folder (bytes "imc0:") then
      mountPartition 0xD00 a.mountImc0 9 10 s else s
  else s

def sendMessage (s : UsbButton) : UsbButton := { s with messages := s.messages + 1 }

/-- `kernel_modid` and `user_modid` say that the module is there; 0x8002D013 is the answer for a module that
is loaded already. -/
def modulesLoaded (s : UsbButton) : Bool :=
  (0 ≤ s.kernelModid ∨ s.kernelModid = 0x8002D013 - 0x100000000) ∧ 0 ≤ s.userModid

def usbMounted (behind : CStr) (s : UsbButton) : Bool :=
  modulesLoaded s && shellKernelIsUx0Redirected behind usb usb2 s.kernel

/-- The branches of `onPressUSB` that take USB away from `ux0:`. -/
def umountUsb (mounting : Kernel → Mounting) (a : UsbAnswers) (s : UsbButton) : UsbButton :=
  let r := mounting s.kernel
  let s := { s with kernel := r.2.1, calls := s.calls ++ r.2.2 }
  if 0 ≤ r.1 then
    { sendMessage { mountOthersPartition 2 a s with runUsb := 3 } with label := some .mountUsb }
  else sendMessage { s with runUsb := 4 }

/-- The branches that put USB behind `ux0:`. -/
def mountUsb (a : UsbAnswers) (s : UsbButton) : UsbButton :=
  let r := mountUsbUx0 s.kernel
  let s := { s with kernel := r.2.1, calls := s.calls ++ r.2.2 }
  if 0 ≤ r.1 then
    { sendMessage { mountOthersPartition 1 a s with runUsb := 1 } with label := some .umountUsb }
  else sendMessage { s with runUsb := 2 }

/-- `vshIoUmount` of a mounted memory card, both ways. -/
def umountCard (folder : Bool) (id : ℕ) (s : UsbButton) : UsbButton :=
  if folder then { s with calls := s.calls ++ [.umount id 0, .umount id 1] } else s

def onPressUsb (a : UsbAnswers) (s : UsbButton) : UsbButton :=
  if s.refreshOnOff then sendMessage { s with runUsb := 12 }
  else if usbMounted a.behind s then
    if a.first.folder (bytes "uma0:") ∨ a.first.file gamecard then umountUsb mountGamecardUx0 a s
    else if a.first.file xmc then
      umountUsb mountXmcUx0 a (umountCard (a.first.folder (bytes "xmc0:")) 0xE00 s)
    else umountUsb mountImcUx0 a (umountCard (a.first.folder (bytes "imc0:")) 0xD00 s)
  else if a.first.folder (bytes "uma0:") ∧ a.first.file usb2 then mountUsb a s
  else if a.again.file usb2 then
    let s := { s with calls := s.calls ++ [.mount mountPointId2 0] }
    if a.mountUma0 < 0 then sendMessage { s with runUsb := 6 } else mountUsb a s
  else sendMessage { s with runUsb := 11 }

def onButtonUsbLoad (behind : CStr) (s : UsbButton) : UsbButton :=
  { s with label := some (if usbMounted behind s then .umountUsb else .mountUsb) }

/-- What a start of the plugin leaves of its own variables, when `_vshKernelSearchModuleByName` answers
`search`, `taiLoadKernelModule` would answer `load`, and the user module is loaded with `user`. -/
def startPlugin (search load user : ℤ) (s : UsbButton) : UsbButton :=
  { s with
    kernelModid := if search < 0 then load else -1
    userModid := user
    refreshOnOff := false
    runUsb := 0
    label := none }

inductive UsbEvent
  | start (search load user : ℤ)
  | press (a : UsbAnswers)
  | load (behind : CStr)
  /-- `refresh_thread` begins or ends. -/
  | refresh (on : Bool)
  /-- A press of another button that only leaves a message, while a refresh is running or not. -/
  | refuse (busy : Bool)
  /-- A message thread ends. -/
  | message

def UsbButton.step (s : UsbButton) : UsbEvent → UsbButton
  | .start search load user => startPlugin search load user s
  | .press a => onPressUsb a s
  | .load behind => onButtonUsbLoad behind s
  | .refresh on => sendMessage { s with refreshOnOff := on, runUsb := if on then 12 else 13 }
  | .refuse busy => sendMessage { s with runUsb := if busy then 12 else 14 }
  | .message => { s with runUsb := 0 }

/-! ## What a press can do -/

/-- What stands behind `ux0:`. -/
structure Ux0 where
  mount : Option SceIoMountPoint
  blkdev : CStr
  blkdev2 : CStr
  deriving DecidableEq

def Kernel.ux0 (k : Kernel) : Ux0 := ⟨k.findMountPoint mountPointId, k.ux0Blkdev, k.ux0Blkdev2⟩

/-- The parts of the plugin that only the button itself changes. -/
def UsbButton.fixed (s : UsbButton) : Ux0 × ℤ × ℤ × Bool × Option UsbLabel :=
  (s.kernel.ux0, s.kernelModid, s.userModid, s.refreshOnOff, s.label)

theorem fixed_ite {c : Prop} [Decidable c] {f : UsbButton → UsbButton}
    (hf : ∀ s, (f s).fixed = s.fixed) (s : UsbButton) : (if c then f s else s).fixed = s.fixed := by
  split
  · exact hf s
  · rfl

theorem redirectUma0_ux0 (blkdev blkdev2 : CStr) (k : Kernel) :
    (shellKernelRedirectUma0 blkdev blkdev2 k).2.ux0 = k.ux0 := by
  have hne : mountPointId ≠ mountPointId2 := by decide
  unfold shellKernelRedirectUma0
  split
  · rfl
  · simp only [Kernel.ux0, setDev, Function.update_of_ne hne]

theorem mountPartition_fixed (id : ℕ) (answer mounted failed : ℤ) (s : UsbButton) :
    (mountPartition id answer mounted failed s).fixed = s.fixed := rfl

theorem mountWith_fixed {mounting : Kernel → Mounting} (h : ∀ k, (mounting k).2.1.ux0 = k.ux0)
    (mounted failed : ℤ) (s : UsbButton) : (mountWith mounting mounted failed s).fixed = s.fixed := by
  simp only [UsbButton.fixed, mountWith, h]

theorem mountOthersPartition_fixed (mount : ℕ) (a : UsbAnswers) (s : UsbButton) :
    (mountOthersPartition mount a s).fixed = s.fixed := by
  have hgamecard := @mountWith_fixed mountGamecardUma0 (redirectUma0_ux0 gamecard gamecard) 5 6
  have husb := @mountWith_fixed mountUsbUma0 (redirectUma0_ux0 usb usb2) 5 6
  have hxmc := mountPartition_fixed 0xE00 a.mountXmc0 7 8
  have himc := mountPartition_fixed 0xD00 a.mountImc0 9 10
  unfold mountOthersPartition
  split
  · exact (fixed_ite himc _).trans ((fixed_ite hxmc _).trans (fixed_ite hgamecard s))
  · split
    · exact (fixed_ite himc _).trans ((fixed_ite hxmc _).trans (husb s))
    · rfl

/-- A press that puts the block devices behind `ux0:`. -/
structure Puts (blkdev blkdev2 : CStr) (label : UsbLabel) (code : ℤ) (s s' : UsbButton) : Prop where
  ux0 : s'.kernel.ux0 = (shellKernelRedirectUx0 blkdev blkdev2 s.kernel).2.ux0
  label : s'.label = some label
  runUsb : s'.runUsb = code
  kernelModid : s'.kernelModid = s.kernelModid
  userModid : s'.userModid = s.userModid

theorem puts_others {blkdev blkdev2 : CStr} {label : UsbLabel} {code : ℤ} {s t : UsbButton} {mount : ℕ}
    {a : UsbAnswers} (hux0 : t.kernel.ux0 = (shellKernelRedirectUx0 blkdev blkdev2 s.kernel).2.ux0)
    (hkernel : t.kernelModid = s.kernelModid) (huser : t.userModid = s.userModid) :
    Puts blkdev blkdev2 label code s
      { sendMessage { mountOthersPartition mount a t with runUsb := code } with label := some label } := by
  have hfixed := mountOthersPartition_fixed mount a t
  simp only [UsbButton.fixed, Prod.mk.injEq] at hfixed
  obtain ⟨h1, h2, h3, -, -⟩ := hfixed
  exact ⟨h1.trans hux0, rfl, rfl, h2.trans hkernel, h3.trans huser⟩

theorem mountUsb_puts (a : UsbAnswers) (s : UsbButton) :
    Puts usb usb2 .umountUsb 1 s (mountUsb a s) := puts_others rfl rfl rfl

theorem umountCard_kernel (folder : Bool) (id : ℕ) (s : UsbButton) :
    (umountCard folder id s).kernel = s.kernel ∧ (umountCard folder id s).kernelModid = s.kernelModid ∧
      (umountCard folder id s).userModid = s.userModid := by
  unfold umountCard
  split <;> exact ⟨rfl, rfl, rfl⟩

/-- **What a press does**: it leaves `ux0:` and the button alone, or takes USB away from `ux0:`, or puts it
there. -/
theorem onPressUsb_cases (a : UsbAnswers) (s : UsbButton) :
    ((s.refreshOnOff = true ∨ usbMounted a.behind s = false) ∧ ∃ code ∈ [(6 : ℤ), 11, 12], ∃ calls,
        onPressUsb a s = sendMessage { s with runUsb := code, calls := calls }) ∨
      (s.refreshOnOff = false ∧ usbMounted a.behind s = true ∧
        ∃ name ∈ [gamecard, xmc, imc], Puts name name .mountUsb 3 s (onPressUsb a s)) ∨
      (usbMounted a.behind s = false ∧ Puts usb usb2 .umountUsb 1 s (onPressUsb a s)) := by
  unfold onPressUsb
  split_ifs with hrefresh hmounted hgamecard hxmc husb hagain huma0
  · exact Or.inl ⟨Or.inl hrefresh, 12, by simp, s.calls, rfl⟩
  · refine Or.inr (Or.inl ⟨by simpa using hrefresh, hmounted, gamecard, by simp, ?_⟩)
    exact puts_others rfl rfl rfl
  · obtain ⟨hk, hm, hu⟩ := umountCard_kernel (a.first.folder (bytes "xmc0:")) 0xE00 s
    refine Or.inr (Or.inl ⟨by simpa using hrefresh, hmounted, xmc, by simp, puts_others ?_ hm hu⟩)
    simp only [mountXmcUx0, hk]
  · obtain ⟨hk, hm, hu⟩ := umountCard_kernel (a.first.folder (bytes "imc0:")) 0xD00 s
    refine Or.inr (Or.inl ⟨by simpa using hrefresh, hmounted, imc, by simp, puts_others ?_ hm hu⟩)
    simp only [mountImcUx0, hk]
  · exact Or.inr (Or.inr ⟨by simpa using hmounted, mountUsb_puts a s⟩)
  · exact Or.inl ⟨Or.inr (by simpa using hmounted), 6, by simp, _, rfl⟩
  · exact Or.inr (Or.inr ⟨by simpa using hmounted, puts_others rfl rfl rfl⟩)
  · exact Or.inl ⟨Or.inr (by simpa using hmounted), 11, by simp, s.calls, rfl⟩

/-! ## What stands behind `ux0:` -/

/-- The name of the USB device stands behind `ux0:`. -/
def Ux0.IsUsb (u : Ux0) : Prop :=
  u.mount = some ⟨some .ux0Dev, some .ux0Dev⟩ ∧ u.blkdev = usb

/-- `ux0:` stands as the system has set it up, or with one of the four pairs of names of the mount
functions. -/
def Ux0.Known (own : SceIoMountPoint) (u : Ux0) : Prop :=
  u.mount = some own ∨ ∃ names ∈ [(gamecard, gamecard), (usb, usb2), (imc, imc), (xmc, xmc)],
    u = ⟨some ⟨some .ux0Dev, some .ux0Dev⟩, names.1, names.2⟩

theorem strncpyUserToKernel_of_short {src : CStr} (behind : CStr) (h : src.length < 63) :
    strncpyUserToKernel behind src = src := if_pos h

theorem redirectUx0_ux0 {blkdev blkdev2 : CStr} {k : Kernel} (hk : k.findMountPoint mountPointId ≠ none)
    (h : blkdev.length < 63) (h2 : blkdev2.length < 63) :
    (shellKernelRedirectUx0 blkdev blkdev2 k).2.ux0 = ⟨some ⟨some .ux0Dev, some .ux0Dev⟩, blkdev, blkdev2⟩ := by
  rw [shellKernelRedirectUx0, if_neg hk]
  simp [Kernel.ux0, setDev, strncpyUserToKernel_of_short, h, h2]

section Known
variable {own : SceIoMountPoint} {b : Option CStr} {k : Kernel}

theorem Ux0.Known.mount_ne_none (h : k.ux0.Known own) : k.findMountPoint mountPointId ≠ none := by
  rcases h with h | ⟨names, -, h⟩
  · have hmount : k.findMountPoint mountPointId = some own := h
    rw [hmount]
    nofun
  · have hmount := congrArg Ux0.mount h
    rw [show k.findMountPoint mountPointId = k.ux0.mount from rfl, hmount]
    nofun

theorem isRedirected_usb (behind : CStr) (hown : own.dev = some (.system b)) (hb : b ≠ some usb)
    (h : k.ux0.Known own) : isRedirected mountPointId behind usb k = true ↔ k.ux0.IsUsb := by
  have hname : strncpyUserToKernel behind usb = usb := strncpyUserToKernel_of_short behind (by decide)
  unfold isRedirected
  rw [hname]
  rcases h with h | ⟨names, -, h⟩
  · have hmount : k.findMountPoint mountPointId = some own := h
    have hne : own ≠ ⟨some .ux0Dev, some .ux0Dev⟩ := by
      rintro rfl
      cases hown
    rw [hmount]
    dsimp only
    rw [hown]
    refine iff_of_false ?_ fun hu => hne (Option.some.inj (h.symm.trans hu.1))
    cases b with
    | none => simp [Kernel.blkdev]
    | some name => simpa [Kernel.blkdev] using hb
  · have hmount : k.findMountPoint mountPointId = some ⟨some .ux0Dev, some .ux0Dev⟩ := congrArg Ux0.mount h
    rw [hmount]
    simp only [Option.bind_some, Kernel.blkdev, beq_iff_eq]
    exact ⟨fun hu => ⟨hmount, hu⟩, fun hu => hu.2⟩

end Known

/-! ## Runs -/

/-- The codes that the handlers leave. -/
def usbCodes : List ℤ := [0, 1, 3, 6, 11, 12, 13, 14]

/-- What holds between two handlers. -/
structure UsbButton.Agrees (own : SceIoMountPoint) (s : UsbButton) : Prop where
  known : s.kernel.ux0.Known own
  label : modulesLoaded s = true → ∀ l, s.label = some l → (l = .umountUsb ↔ s.kernel.ux0.IsUsb)
  runUsb : s.runUsb ∈ usbCodes

section Runs
variable {own : SceIoMountPoint} {b : Option CStr}

theorem Puts.agrees {blkdev blkdev2 : CStr} {label : UsbLabel} {code : ℤ} {s s' : UsbButton}
    (h : Puts blkdev blkdev2 label code s s') (hs : s.Agrees own)
    (hnames : (blkdev, blkdev2) ∈ [(gamecard, gamecard), (usb, usb2), (imc, imc), (xmc, xmc)])
    (hlabel : label = .umountUsb ↔ blkdev = usb) (hcode : code ∈ usbCodes) :
    s'.Agrees own := by
  have hshort : ∀ names ∈ [(gamecard, gamecard), (usb, usb2), (imc, imc), (xmc, xmc)],
      names.1.length < 63 ∧ names.2.length < 63 := by decide
  obtain ⟨hlen, hlen2⟩ := hshort _ hnames
  have hux0 := h.ux0.trans (redirectUx0_ux0 hs.known.mount_ne_none hlen hlen2)
  refine ⟨Or.inr ⟨_, hnames, hux0⟩, fun _ l hl => ?_, h.runUsb ▸ hcode⟩
  obtain rfl : label = l := Option.some.inj (h.label.symm.trans hl)
  rw [hlabel, hux0]
  exact ⟨fun hblkdev => ⟨rfl, hblkdev⟩, fun hu => hu.2⟩

theorem onPressUsb_agrees (a : UsbAnswers) {s : UsbButton} (hs : s.Agrees own) :
    (onPressUsb a s).Agrees own := by
  rcases onPressUsb_cases a s with ⟨-, code, hcode, calls, heq⟩ | ⟨-, -, name, hname, hputs⟩ | ⟨-, hputs⟩
  · have hcodes : ∀ code ∈ [(6 : ℤ), 11, 12], code ∈ usbCodes := by decide
    rw [heq]
    exact ⟨hs.known, hs.label, hcodes code hcode⟩
  · have hnames : ∀ name ∈ [gamecard, xmc, imc],
        (name, name) ∈ [(gamecard, gamecard), (usb, usb2), (imc, imc), (xmc, xmc)] ∧ name ≠ usb := by
      decide
    obtain ⟨hmem, hne⟩ := hnames name hname
    exact hputs.agrees hs hmem ⟨nofun, fun h => absurd h hne⟩ (by decide)
  · exact hputs.agrees hs (by decide) ⟨fun _ => rfl, fun _ => rfl⟩ (by decide)

theorem step_agrees (hown : own.dev = some (.system b)) (hb : b ≠ some usb) {s : UsbButton} (e : UsbEvent)
    (hs : s.Agrees own) : (s.step e).Agrees own := by
  cases e with
  | start search load user => exact ⟨hs.known, nofun, List.mem_cons_self⟩
  | press a => exact onPressUsb_agrees a hs
  | load behind =>
    refine ⟨hs.known, fun hloaded l hl => ?_, hs.runUsb⟩
    have hloaded' : modulesLoaded s = true := hloaded
    have hmounted : usbMounted behind s = true ↔ s.kernel.ux0.IsUsb := by
      rw [usbMounted, hloaded', Bool.true_and]
      exact isRedirected_usb behind hown hb hs.known
    obtain rfl := Option.some.inj hl
    show (if usbMounted behind s then UsbLabel.umountUsb else .mountUsb) = .umountUsb ↔ s.kernel.ux0.IsUsb
    rw [← hmounted]
    split
    · next h => simp [h]
    · next h => simp [h]
  | refresh on =>
    have hcodes : ∀ on : Bool, (if on then (12 : ℤ) else 13) ∈ usbCodes := by decide
    exact ⟨hs.known, hs.label, hcodes on⟩
  | refuse busy =>
    have hcodes : ∀ busy : Bool, (if busy then (12 : ℤ) else 14) ∈ usbCodes := by decide
    exact ⟨hs.known, hs.label, hcodes busy⟩
  | message => exact ⟨hs.known, hs.label, List.mem_cons_self⟩

/-- **The button and `ux0:`.** Whatever is pressed and whatever the system answers, `ux0:` stands as the system
has set it up or with one of the four pairs of names, never with a mixture; the button, once a handler has set it,
says "Umount USB" exactly when USB stands behind `ux0:`, as long as the plugin knows its modules; and no handler
leaves one of the codes 2, 4, 5 and 7 to 10 for its message. -/
theorem usbButton_agrees (hown : own.dev = some (.system b)) (hb : b ≠ some usb) {s : UsbButton}
    (hux0 : s.kernel.findMountPoint mountPointId = some own) (hlabel : s.label = none) (hrun : s.runUsb = 0)
    (events : List UsbEvent) : AtEveryPoint (UsbButton.Agrees own) UsbButton.step s events := by
  have hstart : s.Agrees own := by
    refine ⟨Or.inl hux0, fun _ l hl => ?_, ?_⟩
    · rw [hlabel] at hl
      cases hl
    · rw [hrun]
      exact List.mem_cons_self
  exact atEveryPoint_of_invariant (C := fun _ _ => True) (fun _ e hs _ => step_agrees hown hb e hs) hstart
    fun _ _ _ => trivial

/-! ## A plugin that does not know its modules -/

def UsbEvent.FindsModule : UsbEvent → Prop
  | .start search _ _ => 0 ≤ search
  | _ => True

/-- USB stands behind `ux0:`, and the plugin does not know its modules. -/
def UsbButton.Stuck (s : UsbButton) : Prop := modulesLoaded s = false ∧ s.kernel.ux0.IsUsb

theorem step_stuck (s : UsbButton) (e : UsbEvent) (hs : s.Stuck) (he : e.FindsModule) : (s.step e).Stuck := by
  obtain ⟨hloaded, husb⟩ := hs
  cases e with
  | start search load user =>
    refine ⟨?_, husb⟩
    have hnot : ¬ search < 0 := not_lt.mpr he
    simp [UsbButton.step, modulesLoaded, startPlugin, hnot]
  | press a =>
    show modulesLoaded (onPressUsb a s) = false ∧ _
    have hmounted : usbMounted a.behind s = false := by
      rw [usbMounted, hloaded, Bool.false_and]
    rcases onPressUsb_cases a s with ⟨-, code, -, calls, heq⟩ | ⟨-, h, -⟩ | ⟨-, hputs⟩
    · show _ ∧ (onPressUsb a s).kernel.ux0.IsUsb
      rw [heq]
      exact ⟨hloaded, husb⟩
    · rw [hmounted] at h
      cases h
    · have hmount : s.kernel.findMountPoint mountPointId ≠ none := by
        rw [show s.kernel.findMountPoint mountPointId = s.kernel.ux0.mount from rfl, husb.1]
        nofun
      have hux0 := hputs.ux0.trans (redirectUx0_ux0 hmount (by decide) (by decide))
      refine ⟨?_, ?_⟩
      · rw [modulesLoaded, hputs.kernelModid, hputs.userModid]
        exact hloaded
      · show (onPressUsb a s).kernel.ux0.IsUsb
        rw [hux0]
        exact ⟨rfl, rfl⟩
  | load behind => exact ⟨hloaded, husb⟩
  | refresh on => exact ⟨hloaded, husb⟩
  | refuse busy => exact ⟨hloaded, husb⟩
  | message => exact ⟨hloaded, husb⟩

theorem press_takes_iff (a : UsbAnswers) {s : UsbButton} (husb : s.kernel.ux0.IsUsb) :
    ¬ (onPressUsb a s).kernel.ux0.IsUsb ↔ modulesLoaded s = true ∧ s.refreshOnOff = false := by
  have hmount : s.kernel.findMountPoint mountPointId = some ⟨some .ux0Dev, some .ux0Dev⟩ := husb.1
  have hname : s.kernel.ux0Blkdev = usb := husb.2
  have hredirected : isRedirected mountPointId a.behind usb s.kernel = true := by
    rw [isRedirected, hmount, strncpyUserToKernel_of_short a.behind (by decide)]
    simp [Kernel.blkdev, hname]
  have hmounted : usbMounted a.behind s = modulesLoaded s := by
    rw [usbMounted, shellKernelIsUx0Redirected, hredirected, Bool.and_true]
  have hnone : s.kernel.findMountPoint mountPointId ≠ none := by
    rw [hmount]
    nofun
  rcases onPressUsb_cases a s with ⟨hbranch, code, -, calls, heq⟩ | ⟨hrefresh, h, name, hname, hputs⟩ |
    ⟨h, hputs⟩
  · rw [heq]
    refine iff_of_false (not_not.mpr husb) ?_
    rintro ⟨hloaded, hrefresh⟩
    rw [hmounted, hloaded, hrefresh] at hbranch
    rcases hbranch with hbranch | hbranch <;> cases hbranch
  · have hnames : ∀ name ∈ [gamecard, xmc, imc], name.length < 63 ∧ name ≠ usb := by decide
    obtain ⟨hlen, hne⟩ := hnames name hname
    rw [hputs.ux0, redirectUx0_ux0 hnone hlen hlen]
    exact iff_of_true (fun hu => hne hu.2) ⟨hmounted ▸ h, hrefresh⟩
  · rw [hputs.ux0, redirectUx0_ux0 hnone (by decide) (by decide)]
    refine iff_of_false (not_not.mpr ⟨rfl, rfl⟩) fun hloaded => ?_
    rw [hmounted, hloaded.1] at h
    cases h

/-- **When USB stays behind `ux0:`.** A press takes USB away exactly when the plugin knows its modules and nothing
is being refreshed. A plugin that starts while its kernel module is in memory does not know it: when USB stands
behind `ux0:` then, no event takes it away as long as the module stays in memory, presses of the button included. -/
theorem usbButton_stuck {s : UsbButton} (husb : s.kernel.ux0.IsUsb) :
    (∀ a, ¬ (onPressUsb a s).kernel.ux0.IsUsb ↔ modulesLoaded s = true ∧ s.refreshOnOff = false) ∧
      ∀ (search load user : ℤ) (events : List UsbEvent), 0 ≤ search → (∀ e ∈ events, e.FindsModule) →
        AtEveryPoint (fun t => t.kernel.ux0.IsUsb) UsbButton.step (startPlugin search load user s) events := by
  refine ⟨fun a => press_takes_iff a husb, fun search load user events hsearch hevents => ?_⟩
  have hstart : (startPlugin search load user s).Stuck := by
    refine ⟨?_, husb⟩
    simp [modulesLoaded, startPlugin, not_lt.mpr hsearch]
  have hsteps : EachStep (fun _ e => e.FindsModule) UsbButton.step (startPlugin search load user s) events :=
    fun p e hp => hevents e (hp.subset (List.mem_append_right p List.mem_cons_self))
  exact (atEveryPoint_of_invariant step_stuck hstart hsteps).mono fun _ h => h.2

end Runs

/-! ## A console with USB behind `ux0:` -/

def quietProbes : Probes := ⟨fun _ => false, fun _ => false⟩

/-- The USB device is there and nothing else. -/
def usbAnswers : UsbAnswers where
  behind := []
  first := quietProbes
  again := ⟨fun path => path == usb2, fun _ => false⟩
  others := quietProbes
  mountUma0 := 0
  mountXmc0 := 0
  mountImc0 := 0

def bootedButton : UsbButton where
  kernel := {
    findMountPoint := fun _ => some ⟨some (.system (some xmc)), none⟩
    ux0Blkdev := []
    ux0Blkdev2 := []
    uma0Blkdev := []
    uma0Blkdev2 := [] }
  kernelModid := 5
  userModid := 6
  refreshOnOff := false
  runUsb := 0
  label := none
  calls := []
  messages := 0

theorem usbButton_agrees_pressed :
    AtEveryPoint (UsbButton.Agrees ⟨some (.system (some xmc)), none⟩) UsbButton.step bootedButton
      [.load [], .press usbAnswers, .load []] :=
  usbButton_agrees rfl (by decide) rfl rfl rfl _

theorem usbButton_stuck_restarted :
    (replay UsbButton.step (startPlugin 5 0 6 (onPressUsb usbAnswers bootedButton))
      [.press usbAnswers, .press usbAnswers]).kernel.ux0.IsUsb := by
  have husb : (onPressUsb usbAnswers bootedButton).kernel.ux0.IsUsb := by
    refine ⟨?_, ?_⟩ <;> decide +kernel
  obtain ⟨-, hstuck⟩ := usbButton_stuck husb
  have hpresses : ∀ e ∈ [UsbEvent.press usbAnswers, .press usbAnswers], e.FindsModule := by
    intro e he
    rcases List.mem_pair.mp he with rfl | rfl <;> trivial
  exact hstuck 5 0 6 _ (by decide) hpresses 2

end VitaConnect.Modes
