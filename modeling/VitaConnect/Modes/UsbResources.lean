import VitaConnect.Modes.Exclusion

/-! # What a USB session holds

A session holds three things: the storage that `sceUsbstorVStorStart` has started, the MTP driver it has stopped,
and the module `usbdevice` in memory, which `usbdevice_modid` names. No handler looks at what `stopUsb` answers,
and `initUsb` writes the answer of `startUsb` over `usbdevice_modid`, whatever it is.
-/
namespace VitaConnect.Modes
open CString Program
set_option autoImplicit false

/-! ## The three things -/

structure UsbResources where
  session : Bool
  mtpStopped : Bool
  /-- The modules `usbdevice` in memory. -/
  modules : List ℤ
  deriving DecidableEq

/-- What stands behind a call. -/
def UsbResources.after (r : UsbResources) : UsbCall → UsbResources
  | .loadStartModule _ ret => if 0 ≤ ret then { r with modules := r.modules ++ [ret] } else r
  | .stopUnloadModule modid ret => if 0 ≤ ret then { r with modules := r.modules.erase modid } else r
  | .mtpStopDriver ret => if 0 ≤ ret ∨ ret = mtpNotRunning then { r with mtpStopped := true } else r
  | .mtpStartDriver ret => if 0 ≤ ret then { r with mtpStopped := false } else r
  | .vstorStart ret => if 0 ≤ ret then { r with session := true } else r
  | .vstorStop ret => if 0 ≤ ret then { r with session := false } else r
  | _ => r

def UsbResources.idle : UsbResources := ⟨false, false, []⟩

def Plugin.usbResources (s : Plugin) : UsbResources := replay UsbResources.after .idle s.usbCalls

/-- Either nothing is held, or a session, the driver and the module that `modid` names. -/
def UsbResources.Together (modid : ℤ) (r : UsbResources) : Prop :=
  r = .idle ∨ 0 ≤ modid ∧ r = ⟨true, true, [modid]⟩

theorem after_session (r : UsbResources) (call : UsbCall) :
    (r.after call).session = sessionAfter r.session call := by
  cases call with
  | vstorStart ret =>
    by_cases h : 0 ≤ ret <;> simp [UsbResources.after, sessionAfter, h]
  | vstorStop ret =>
    by_cases h : 0 ≤ ret
    · simp [UsbResources.after, sessionAfter, h, not_lt.mpr h]
    · simp [UsbResources.after, sessionAfter, h, not_le.mp h]
  | loadStartModule path ret => by_cases h : 0 ≤ ret <;> simp [UsbResources.after, sessionAfter, h]
  | stopUnloadModule modid ret => by_cases h : 0 ≤ ret <;> simp [UsbResources.after, sessionAfter, h]
  | mtpStopDriver ret =>
    by_cases h : 0 ≤ ret ∨ ret = mtpNotRunning <;> simp [UsbResources.after, sessionAfter, h]
  | mtpStartDriver ret => by_cases h : 0 ≤ ret <;> simp [UsbResources.after, sessionAfter, h]
  | _ => rfl

theorem replay_session (calls : List UsbCall) (r : UsbResources) :
    (replay UsbResources.after r calls).session = session r.session calls := by
  induction calls generalizing r with
  | nil => rfl
  | cons call calls ih =>
    rw [replay_cons, ih, after_session]
    rfl

theorem usbResources_session (s : Plugin) : s.usbResources.session = s.started :=
  replay_session s.usbCalls .idle

theorem replay_remounts (folderExist : CStr → Bool) (r : UsbResources) :
    replay UsbResources.after r (remounts folderExist) = r := by
  unfold remounts
  simp only [replay_append]
  split_ifs <;> rfl

/-! ## Stopping -/

/-- A stop that begins comes to its end. -/
def StopAnswers.Clean (a : StopAnswers) : Prop :=
  a.vstorStop < 0 ∨ 0 ≤ a.mtpStartDriver ∧ 0 ≤ a.stopUnloadModule

theorem stopUsb_resources (modid : ℤ) (a : StopAnswers) (r : UsbResources) :
    replay UsbResources.after r (stopUsb modid a).2 =
      if a.vstorStop < 0 then r
      else if a.mtpStartDriver < 0 then { r with session := false }
      else if a.stopUnloadModule < 0 then { r with session := false, mtpStopped := false }
      else ⟨false, false, r.modules.erase modid⟩ := by
  unfold stopUsb
  dsimp only
  split_ifs with hstop hmtp hunload
  · simp [replay_cons, replay_nil, UsbResources.after, not_le.mpr hstop]
  · simp [replay_cons, replay_nil, UsbResources.after, not_lt.mp hstop, not_le.mpr hmtp]
  · simp [replay_cons, replay_nil, UsbResources.after, not_lt.mp hstop, not_lt.mp hmtp, not_le.mpr hunload]
  · rw [replay_append, replay_remounts]
    simp [replay_cons, replay_nil, UsbResources.after, not_lt.mp hstop, not_lt.mp hmtp, not_lt.mp hunload]

theorem stopUsb_idle (modid : ℤ) (a : StopAnswers) :
    replay UsbResources.after .idle (stopUsb modid a).2 = .idle := by
  rw [stopUsb_resources]
  split_ifs <;> rfl

theorem stopUsb_active {modid : ℤ} (a : StopAnswers) (hmodid : 0 ≤ modid) :
    UsbResources.Together modid (replay UsbResources.after ⟨true, true, [modid]⟩ (stopUsb modid a).2) ↔
      a.Clean := by
  rw [stopUsb_resources, StopAnswers.Clean]
  split_ifs with hstop hmtp hunload
  · exact iff_of_true (Or.inr ⟨hmodid, rfl⟩) (Or.inl hstop)
  · refine iff_of_false ?_ (by omega)
    simp [UsbResources.Together, UsbResources.idle]
  · refine iff_of_false ?_ (by omega)
    simp [UsbResources.Together, UsbResources.idle]
  · refine iff_of_true (Or.inl ?_) (by omega)
    simp [UsbResources.idle]

/-! ## Starting -/

def StartAnswers.DriverStops (a : StartAnswers) : Prop := 0 ≤ a.mtpStopDriver ∨ a.mtpStopDriver = mtpNotRunning

def StartAnswers.StorageStarts (a : StartAnswers) : Prop :=
  0 ≤ a.vstorSetDeviceInfo ∧ 0 ≤ a.vstorSetImgFilePath ∧ 0 ≤ a.vstorStart

def StartAnswers.Succeeds (a : StartAnswers) : Prop := 0 ≤ a.loadStartModule ∧ a.DriverStops ∧ a.StorageStarts

/-- A start that fails behind the load of the module gives back what it has taken. -/
def StartAnswers.Clean (a : StartAnswers) : Prop :=
  0 ≤ a.loadStartModule → ¬ (a.DriverStops ∧ a.StorageStarts) →
    0 ≤ a.stopUnloadModule ∧ (a.DriverStops → 0 ≤ a.mtpStartDriver)

theorem driverStops_iff (a : StartAnswers) :
    a.DriverStops ↔ ¬ (a.mtpStopDriver < 0 ∧ a.mtpStopDriver ≠ mtpNotRunning) := by
  rw [StartAnswers.DriverStops, not_and_or, not_lt, not_not]

/-- The four ways through `startUsb`, each with what it leaves. -/
theorem startUsb_cases (path : CStr) (a : StartAnswers) (r : UsbResources) :
    (a.loadStartModule < 0 ∧ (startUsb path a).1 < 0 ∧ replay UsbResources.after r (startUsb path a).2 = r) ∨
      (0 ≤ a.loadStartModule ∧ ¬ a.DriverStops ∧ (startUsb path a).1 < 0 ∧
        replay UsbResources.after r (startUsb path a).2 =
          replay UsbResources.after { r with modules := r.modules ++ [a.loadStartModule] } (errorStopDriver a)) ∨
      (0 ≤ a.loadStartModule ∧ a.DriverStops ∧ ¬ a.StorageStarts ∧ (startUsb path a).1 < 0 ∧
        replay UsbResources.after r (startUsb path a).2 =
          replay UsbResources.after { r with mtpStopped := true, modules := r.modules ++ [a.loadStartModule] }
            (errorUsbstorVstor a)) ∨
      (a.Succeeds ∧ (startUsb path a).1 = a.loadStartModule ∧
        replay UsbResources.after r (startUsb path a).2 = ⟨true, true, r.modules ++ [a.loadStartModule]⟩) := by
  unfold startUsb
  dsimp only
  split_ifs with hload hdriver hinfo himg hstart
  · refine Or.inl ⟨hload, hload, ?_⟩
    simp [replay_cons, replay_nil, UsbResources.after, not_le.mpr hload]
  · refine Or.inr (Or.inl ⟨not_lt.mp hload, fun h => (driverStops_iff a).mp h hdriver, hdriver.1, ?_⟩)
    rw [replay_append]
    simp [replay_cons, replay_nil, UsbResources.after, not_lt.mp hload, not_le.mpr hdriver.1, hdriver.2]
  · have hstops := (driverStops_iff a).mpr hdriver
    refine Or.inr (Or.inr (Or.inl ⟨not_lt.mp hload, hstops, fun h => ?_, hinfo, ?_⟩))
    · exact absurd h.1 (not_le.mpr hinfo)
    · rw [StartAnswers.DriverStops] at hstops
      rw [replay_append]
      simp [replay_cons, replay_nil, UsbResources.after, not_lt.mp hload, hstops]
  · have hstops := (driverStops_iff a).mpr hdriver
    refine Or.inr (Or.inr (Or.inl ⟨not_lt.mp hload, hstops, fun h => ?_, himg, ?_⟩))
    · exact absurd h.2.1 (not_le.mpr himg)
    · rw [StartAnswers.DriverStops] at hstops
      rw [replay_append]
      simp [replay_cons, replay_nil, UsbResources.after, not_lt.mp hload, hstops]
  · have hstops := (driverStops_iff a).mpr hdriver
    refine Or.inr (Or.inr (Or.inl ⟨not_lt.mp hload, hstops, fun h => ?_, hstart, ?_⟩))
    · exact absurd h.2.2 (not_le.mpr hstart)
    · rw [StartAnswers.DriverStops] at hstops
      rw [replay_append]
      simp [replay_cons, replay_nil, UsbResources.after, not_lt.mp hload, hstops, not_le.mpr hstart]
  · have hstops := (driverStops_iff a).mpr hdriver
    refine Or.inr (Or.inr (Or.inr ⟨⟨not_lt.mp hload, hstops, ?_⟩, rfl, ?_⟩))
    · exact ⟨not_lt.mp hinfo, not_lt.mp himg, not_lt.mp hstart⟩
    · rw [StartAnswers.DriverStops] at hstops
      simp [replay_cons, replay_nil, UsbResources.after, not_lt.mp hload, hstops, not_lt.mp hstart]

theorem together_of_neg {modid : ℤ} (h : modid < 0) (r : UsbResources) :
    UsbResources.Together modid r ↔ r = .idle :=
  or_iff_left fun hactive => absurd hactive.1 (not_le.mpr h)

theorem startUsb_idle_iff (path : CStr) (a : StartAnswers) :
    UsbResources.Together (startUsb path a).1 (replay UsbResources.after .idle (startUsb path a).2) ↔ a.Clean := by
  rcases startUsb_cases path a .idle with ⟨hload, -, hr⟩ | ⟨hload, hdriver, hcode, hr⟩ |
    ⟨hload, hdriver, hstorage, hcode, hr⟩ | ⟨hs, hcode, hr⟩
  · rw [hr]
    exact iff_of_true (Or.inl rfl) fun h => absurd h (not_le.mpr hload)
  · rw [hr, together_of_neg hcode, StartAnswers.Clean]
    by_cases hunload : 0 ≤ a.stopUnloadModule <;>
      simp [errorStopDriver, replay_cons, replay_nil, UsbResources.after, UsbResources.idle, hload, hdriver, hunload]
  · rw [hr, together_of_neg hcode, StartAnswers.Clean]
    by_cases hmtp : 0 ≤ a.mtpStartDriver <;> by_cases hunload : 0 ≤ a.stopUnloadModule <;>
      simp [errorUsbstorVstor, errorStopDriver, replay_cons, replay_nil, UsbResources.after, UsbResources.idle,
        hload, hdriver, hstorage, hmtp, hunload]
  · rw [hr, hcode]
    exact iff_of_true (Or.inr ⟨hs.1, rfl⟩) fun _ h => absurd hs.2 h

theorem length_of_together {modid : ℤ} {r : UsbResources} (h : UsbResources.Together modid r) :
    r.modules.length ≤ 1 := by
  rcases h with rfl | ⟨-, rfl⟩
  · exact Nat.zero_le 1
  · exact le_refl 1

theorem erase_append_ne_nil {modules : List ℤ} (m : ℤ) (h : modules ≠ []) : (modules ++ [m]).erase m ≠ [] := by
  intro herase
  have hlength := List.length_erase_of_mem (List.mem_append_right modules (List.mem_singleton_self m))
  rw [herase, List.length_append] at hlength
  have hpos := List.length_pos_of_ne_nil h
  simp at hlength
  omega

/-- A start while a module is in memory leaves one that `usbdevice_modid` does not name. -/
theorem startUsb_not_together (path : CStr) (a : StartAnswers) {r : UsbResources} (h : r.modules ≠ []) :
    ¬ UsbResources.Together (startUsb path a).1 (replay UsbResources.after r (startUsb path a).2) := by
  have hne : ∀ {u : UsbResources}, u.modules ≠ [] → u ≠ .idle := by
    rintro u hu rfl
    exact hu rfl
  have herase := erase_append_ne_nil a.loadStartModule h
  rcases startUsb_cases path a r with ⟨-, hcode, hr⟩ | ⟨-, -, hcode, hr⟩ | ⟨-, -, -, hcode, hr⟩ | ⟨-, -, hr⟩
  · rw [hr, together_of_neg hcode]
    exact hne h
  · rw [hr, together_of_neg hcode]
    apply hne
    by_cases hunload : 0 ≤ a.stopUnloadModule <;>
      simp [errorStopDriver, replay_cons, replay_nil, UsbResources.after, hunload, herase]
  · rw [hr, together_of_neg hcode]
    apply hne
    by_cases hmtp : 0 ≤ a.mtpStartDriver <;> by_cases hunload : 0 ≤ a.stopUnloadModule <;>
      simp [errorUsbstorVstor, errorStopDriver, replay_cons, replay_nil, UsbResources.after, hmtp, hunload, herase]
  · rw [hr]
    intro htogether
    have hlength := length_of_together htogether
    have hpos := List.length_pos_of_ne_nil h
    rw [List.length_append, List.length_singleton] at hlength
    omega

/-! ## What an event does with the session -/

/-- The answers for the `stopUsb` that an event comes to. -/
def stopOf (model : Model) (s : Plugin) : Event → Option StopAnswers
  | .press a =>
    if s.refreshOnOff = false ∧ model = .vita ∧ s.selectWifiUsb = false ∧ 0 ≤ s.usbdeviceModid then some a.stop
    else none
  | .buttonLoad checkbox a =>
    if model = .vita ∧ checkbox ≠ 0 ∧ 0 ≤ s.usbdeviceModid then some a else none
  | .toggle checkbox a => if checkbox ≠ 0 ∧ s.usbdeviceOff = false then some a else none
  | .netctl eventType a =>
    if (eventType = 1 ∨ eventType = 2 ∨ eventType = 3) ∧ s.runUsb = 0 ∧ s.selectWifiUsb = false ∧
      model = .vita ∧ s.usbdeviceOff = false then some a
    else none
  | .tick _ cable a =>
    if cable.disconnected ∧ s.usbdeviceOff = false ∧ s.selectWifiUsb = false then some a else none
  | _ => none

/-- The device and the answers for the `startUsb` that an event comes to, behind its `stopUsb`. -/
def startOf (model : Model) (s : Plugin) : Event → Option (CStr × StartAnswers)
  | .press a =>
    if s.refreshOnOff = false ∧ model = .vita ∧ s.selectWifiUsb = false ∧ a.cable.connected then
      ((usbPaths (mountType s.count)).bind (·.find? a.fileExist)).map fun path => (path, a.start)
    else none
  | _ => none

def stopCalls (modid : ℤ) (stop : Option StopAnswers) : List UsbCall :=
  stop.elim [] fun a => (stopUsb modid a).2

def startCalls (start : Option (CStr × StartAnswers)) : List UsbCall :=
  start.elim [] fun b => (startUsb b.1 b.2).2

structure UsbWork (stop : Option StopAnswers) (start : Option (CStr × StartAnswers)) (s t : Plugin) : Prop where
  calls : t.usbCalls = s.usbCalls ++ stopCalls s.usbdeviceModid stop ++ startCalls start
  modid : t.usbdeviceModid = start.elim s.usbdeviceModid fun b => (startUsb b.1 b.2).1

section Work
variable {model : Model} {s t u : Plugin}

theorem usbWork_none (hcalls : t.usbCalls = s.usbCalls) (hmodid : t.usbdeviceModid = s.usbdeviceModid) :
    UsbWork none none s t := by
  refine ⟨?_, hmodid⟩
  rw [hcalls, stopCalls, startCalls, Option.elim_none, Option.elim_none, List.append_nil, List.append_nil]

theorem usbWork_stop (a : StopAnswers) (hcalls : t.usbCalls = (stopDevice a s).usbCalls)
    (hmodid : t.usbdeviceModid = s.usbdeviceModid) : UsbWork (some a) none s t := by
  refine ⟨?_, hmodid⟩
  rw [hcalls, startCalls, Option.elim_none, List.append_nil]
  rfl

theorem initUsb_work (fileExist : CStr → Bool) (a : StartAnswers) (s : Plugin) :
    UsbWork none (((usbPaths (mountType s.count)).bind (·.find? fileExist)).map fun path => (path, a)) s
      (initUsb fileExist a s) := by
  unfold initUsb
  dsimp only
  cases hpaths : usbPaths (mountType s.count) with
  | none => exact usbWork_none rfl rfl
  | some paths =>
    cases hfind : paths.find? fileExist with
    | none =>
      simp only [Option.bind_some, hfind, Option.map_none]
      exact usbWork_none rfl rfl
    | some path =>
      simp only [Option.bind_some, hfind, Option.map_some]
      exact ⟨by simp [stopCalls, startCalls], rfl⟩

theorem checkWifiPlane_usb (r : Registry) (s : Plugin) :
    (checkWifiPlane r s).usbCalls = s.usbCalls ∧ (checkWifiPlane r s).usbdeviceModid = s.usbdeviceModid ∧
      (checkWifiPlane r s).usbdeviceOff = s.usbdeviceOff ∧ (checkWifiPlane r s).selectWifiUsb = s.selectWifiUsb := by
  unfold checkWifiPlane
  split <;> exact ⟨rfl, rfl, rfl, rfl⟩

theorem pressServer_usb (a : PressAnswers) (s : Plugin) :
    (pressServer a s).usbCalls = s.usbCalls ∧ (pressServer a s).usbdeviceModid = s.usbdeviceModid := by
  obtain ⟨hcalls, hmodid, -, -⟩ := checkWifiPlane_usb a.registry s
  unfold pressServer doNetConnected
  dsimp only
  split_ifs
  · exact ⟨rfl, rfl⟩
  · exact ⟨hcalls, hmodid⟩
  · exact ⟨hcalls, hmodid⟩

theorem pressUsb_work (a : PressAnswers) (s : Plugin) :
    UsbWork (if 0 ≤ s.usbdeviceModid then some a.stop else none)
      (if a.cable.connected then
        ((usbPaths (mountType s.count)).bind (·.find? a.fileExist)).map fun path => (path, a.start)
      else none) s (pressUsb a s) := by
  unfold pressUsb
  by_cases hmodid : 0 ≤ s.usbdeviceModid
  · rw [if_pos hmodid]
    dsimp only
    split_ifs with hconnected hdisconnected
    · have hwork := initUsb_work a.fileExist a.start { stopDevice a.stop s with usbdeviceOff := true }
      refine ⟨?_, hwork.modid⟩
      have hcalls := hwork.calls
      rw [stopCalls, Option.elim_none, List.append_nil] at hcalls
      exact hcalls
    · exact usbWork_stop a.stop rfl rfl
    · exact usbWork_stop a.stop rfl rfl
  · rw [if_neg hmodid]
    dsimp only
    split_ifs with hconnected hdisconnected
    · have hwork := initUsb_work a.fileExist a.start s
      exact ⟨hwork.calls, hwork.modid⟩
    · exact usbWork_none rfl rfl
    · exact usbWork_none rfl rfl

theorem onPressFtp_work (model : Model) (a : PressAnswers) (s : Plugin) :
    UsbWork (stopOf model s (.press a)) (startOf model s (.press a)) s (onPressFtp model a s) := by
  simp only [onPressFtp, stopOf, startOf]
  by_cases hrefresh : s.refreshOnOff = true
  · simp only [hrefresh, Bool.true_eq_false, false_and, if_false, if_true]
    exact usbWork_none rfl rfl
  · rw [Bool.not_eq_true] at hrefresh
    cases model with
    | vitaTv =>
      simp only [hrefresh, Bool.false_eq_true, if_false, reduceCtorEq, false_and, and_false]
      exact usbWork_none (pressServer_usb a _).1 (pressServer_usb a _).2
    | vita =>
      by_cases hselect : s.selectWifiUsb = true
      · simp only [hrefresh, hselect, Bool.true_eq_false, Bool.false_eq_true, false_and, and_false, if_false, if_true]
        exact usbWork_none (pressServer_usb a _).1 (pressServer_usb a _).2
      · rw [Bool.not_eq_true] at hselect
        simp only [hselect, hrefresh, Bool.false_eq_true, true_and, if_false]
        exact ⟨(pressUsb_work a _).calls, (pressUsb_work a _).modid⟩

theorem monitorTick_work (r : Registry) (cable : Cable) (a : StopAnswers) (s : Plugin) :
    UsbWork (if cable.disconnected ∧ s.usbdeviceOff = false ∧ s.selectWifiUsb = false then some a else none) none s
      (monitorTick r cable a s) := by
  unfold monitorTick
  by_cases hmesg : s.sMesg = true
  · rw [if_pos hmesg]
    dsimp only
    split_ifs
    · exact usbWork_stop a rfl rfl
    · exact usbWork_none rfl rfl
  · rw [if_neg hmesg]
    obtain ⟨hcalls, hmodid, hoff, hselect⟩ := checkWifiPlane_usb r s
    dsimp only
    rw [hoff, hselect]
    split_ifs
    · refine usbWork_stop a ?_ hmodid
      show (checkWifiPlane r s).usbCalls ++ (stopUsb (checkWifiPlane r s).usbdeviceModid a).2 = _
      rw [hcalls, hmodid]
      rfl
    · exact usbWork_none hcalls hmodid

theorem step_usb (model : Model) (s : Plugin) (e : Event) :
    UsbWork (stopOf model s e) (startOf model s e) s (s.step model e) := by
  cases e with
  | press a => exact onPressFtp_work model a s
  | pressSelect =>
    simp only [Plugin.step, onPressSelect]
    split
    · split_ifs <;> exact usbWork_none rfl rfl
    · exact usbWork_none rfl rfl
  | buttonLoad checkbox a =>
    simp only [Plugin.step, onButtonFtpLoad, stopOf, startOf]
    cases model with
    | vitaTv => exact usbWork_none rfl rfl
    | vita =>
      dsimp only
      by_cases hcheckbox : checkbox = 0
      · simp only [hcheckbox, ne_eq, not_true_eq_false, decide_false, Bool.false_eq_true, if_false, false_and,
          and_false]
        split_ifs <;> exact usbWork_none rfl rfl
      · simp only [hcheckbox, ne_eq, not_false_eq_true, decide_true, if_true, true_and]
        split_ifs
        · exact usbWork_stop a rfl rfl
        · exact usbWork_none rfl rfl
  | toggle checkbox a =>
    simp only [Plugin.step, onToggleCheckBoxFtpUsb, stopOf, startOf]
    by_cases hcheckbox : checkbox = 0
    · simp only [hcheckbox, ne_eq, not_true_eq_false, decide_false, Bool.false_eq_true, if_false, false_and]
      split_ifs <;> exact usbWork_none rfl rfl
    · simp only [hcheckbox, ne_eq, not_false_eq_true, decide_true, if_true, true_and]
      cases hoff : s.usbdeviceOff with
      | true => exact usbWork_none rfl rfl
      | false => exact usbWork_stop a rfl rfl
  | netctl eventType a =>
    simp only [Plugin.step, netctlCb, stopOf, startOf]
    by_cases hevent : (eventType = 1 ∨ eventType = 2 ∨ eventType = 3) ∧ s.runUsb = 0
    · cases hselect : s.selectWifiUsb with
      | true =>
        simp only [hevent, and_self, if_true, Bool.true_eq_false, false_and, and_false, if_false]
        split_ifs <;> exact usbWork_none rfl rfl
      | false =>
        simp only [hevent, and_self, if_true, Bool.false_eq_true, if_false, true_and]
        split_ifs
        · exact usbWork_stop a rfl rfl
        · exact usbWork_none rfl rfl
    · rw [if_neg hevent, if_neg fun h => hevent ⟨h.1, h.2.1⟩]
      exact usbWork_none rfl rfl
  | tick r cable a =>
    exact monitorTick_work r cable a s
  | message =>
    simp only [Plugin.step]
    split
    · exact usbWork_none rfl rfl
    · simp only [messageText]
      split_ifs <;> exact usbWork_none rfl rfl
  | messageEnd =>
    simp only [Plugin.step]
    split <;> exact usbWork_none rfl rfl
  | announce code => exact usbWork_none rfl rfl
  | refreshing on => exact usbWork_none rfl rfl

/-! ## Runs -/

def Plugin.Together (s : Plugin) : Prop := UsbResources.Together s.usbdeviceModid s.usbResources

/-- A stop during a session comes to its end once it begins, a start finds no session behind the stop before it,
and a start that fails gives back what it has taken. -/
def CleanUsb (model : Model) (s : Plugin) (e : Event) : Prop :=
  (s.started = true → ∀ a ∈ stopOf model s e, a.Clean) ∧
    ∀ b ∈ startOf model s e, b.2.Clean ∧ (s.started = true → ∃ a ∈ stopOf model s e, 0 ≤ a.vstorStop)

theorem UsbWork.resources {stop : Option StopAnswers} {start : Option (CStr × StartAnswers)}
    (h : UsbWork stop start s t) : t.usbResources =
      replay UsbResources.after (replay UsbResources.after s.usbResources (stopCalls s.usbdeviceModid stop))
        (startCalls start) := by
  rw [Plugin.usbResources, h.calls, replay_append, replay_append]
  rfl

theorem started_of_idle (h : s.usbResources = .idle) : s.started = false := by
  rw [← usbResources_session, h]
  rfl

theorem UsbWork.together_of_idle {stop : Option StopAnswers} {start : Option (CStr × StartAnswers)}
    (h : UsbWork stop start s t) (hs : s.usbResources = .idle) :
    t.Together ↔ ∀ b ∈ start, b.2.Clean := by
  have hstopped : replay UsbResources.after s.usbResources (stopCalls s.usbdeviceModid stop) = .idle := by
    rw [hs]
    cases stop with
    | none => rfl
    | some a => exact stopUsb_idle s.usbdeviceModid a
  rw [Plugin.Together, h.resources, h.modid, hstopped]
  cases start with
  | none => exact iff_of_true (Or.inl rfl) nofun
  | some b =>
    simp only [Option.mem_def, Option.some.injEq, forall_eq']
    exact startUsb_idle_iff b.1 b.2

theorem UsbWork.together_of_active {stop : Option StopAnswers} {start : Option (CStr × StartAnswers)}
    (h : UsbWork stop start s t) (hmodid : 0 ≤ s.usbdeviceModid)
    (hs : s.usbResources = ⟨true, true, [s.usbdeviceModid]⟩) :
    t.Together ↔ (∀ a ∈ stop, a.Clean) ∧ ∀ b ∈ start, b.2.Clean ∧ ∃ a ∈ stop, 0 ≤ a.vstorStop := by
  rw [Plugin.Together, h.resources, h.modid, hs]
  cases start with
  | none =>
    simp only [startCalls, Option.elim_none, replay_nil, Option.mem_def, reduceCtorEq, false_implies, implies_true,
      and_true]
    cases stop with
    | none => exact iff_of_true (Or.inr ⟨hmodid, rfl⟩) nofun
    | some a =>
      simp only [Option.some.injEq, forall_eq']
      exact stopUsb_active a hmodid
  | some b =>
    simp only [startCalls, Option.elim_some, Option.mem_def, Option.some.injEq, forall_eq']
    cases stop with
    | none =>
      refine iff_of_false (startUsb_not_together b.1 b.2 (List.cons_ne_nil _ _)) ?_
      rintro ⟨-, -, a, ha, -⟩
      cases ha
    | some a =>
      simp only [Option.some.injEq, forall_eq', exists_eq_left', stopCalls, Option.elim_some]
      rw [stopUsb_resources]
      split_ifs with hstop hmtp hunload
      · exact iff_of_false (startUsb_not_together b.1 b.2 (List.cons_ne_nil _ _))
          fun hclean => absurd hclean.2.2 (not_le.mpr hstop)
      · refine iff_of_false (startUsb_not_together b.1 b.2 (List.cons_ne_nil _ _)) fun hclean => ?_
        have hends := hclean.1
        rw [StopAnswers.Clean] at hends
        omega
      · refine iff_of_false (startUsb_not_together b.1 b.2 (List.cons_ne_nil _ _)) fun hclean => ?_
        have hends := hclean.1
        rw [StopAnswers.Clean] at hends
        omega
      · have hends : a.Clean := Or.inr ⟨not_lt.mp hmtp, not_lt.mp hunload⟩
        have hidle : (⟨false, false, [s.usbdeviceModid].erase s.usbdeviceModid⟩ : UsbResources) = .idle := by
          rw [List.erase_cons_head]
          rfl
        rw [hidle, startUsb_idle_iff]
        exact ⟨fun hb => ⟨hends, hb, not_lt.mp hstop⟩, fun hclean => hclean.2.1⟩

theorem step_together_iff (e : Event) (h : s.Together) : (s.step model e).Together ↔ CleanUsb model s e := by
  have hwork := step_usb model s e
  rcases h with hidle | ⟨hmodid, hactive⟩
  · have hstarted : ¬ s.started = true := by simp [started_of_idle hidle]
    rw [hwork.together_of_idle hidle, CleanUsb]
    exact ⟨fun h => ⟨fun hs => absurd hs hstarted, fun b hb => ⟨h b hb, fun hs => absurd hs hstarted⟩⟩,
      fun h b hb => (h.2 b hb).1⟩
  · have hstarted : s.started = true := by
      rw [← usbResources_session, hactive]
    rw [hwork.together_of_active hmodid hactive, CleanUsb]
    exact ⟨fun h => ⟨fun _ => h.1, fun b hb => ⟨(h.2 b hb).1, fun _ => (h.2 b hb).2⟩⟩,
      fun h => ⟨h.1 hstarted, fun b hb => ⟨(h.2 b hb).1, (h.2 b hb).2 hstarted⟩⟩⟩

/-- **What a session holds is taken and given back together**, at every point of a run, exactly when every stop
during a session comes to its end once `sceUsbstorVStorStop` has succeeded, every start finds no session, and every
start that fails gives back the module and the driver. -/
theorem usbResources_together_iff (model : Model) (checkbox : Bool) (events : List Event) :
    AtEveryPoint Plugin.Together (Plugin.step model) (Plugin.start model checkbox) events ↔
      EachStep (CleanUsb model) (Plugin.step model) (Plugin.start model checkbox) events :=
  atEveryPoint_iff_eachStep (fun _ e h => step_together_iff e h) (Or.inl rfl)

/-! ## A module that is lost -/

/-- The module is in memory, and `usbdevice_modid` does not name it. -/
structure Plugin.Lost (m : ℤ) (s : Plugin) : Prop where
  loaded : m ∈ s.usbResources.modules
  nonneg : 0 ≤ m
  unnamed : m ≠ s.usbdeviceModid

theorem stopUsb_modules {m modid : ℤ} (hm : m ≠ modid) (a : StopAnswers) {r : UsbResources} (h : m ∈ r.modules) :
    m ∈ (replay UsbResources.after r (stopUsb modid a).2).modules := by
  rw [stopUsb_resources]
  split_ifs
  · exact h
  · exact h
  · exact h
  · exact (List.mem_erase_of_ne hm).mpr h

theorem startUsb_modules {m : ℤ} (path : CStr) {a : StartAnswers} (hm : m ≠ a.loadStartModule) (r : UsbResources) :
    m ∈ (replay UsbResources.after r (startUsb path a).2).modules ↔ m ∈ r.modules := by
  have hload : m ∈ r.modules ++ [a.loadStartModule] ↔ m ∈ r.modules := by
    rw [List.mem_append, List.mem_singleton, or_iff_left hm]
  have hunload : m ∈ (r.modules ++ [a.loadStartModule]).erase a.loadStartModule ↔ m ∈ r.modules :=
    (List.mem_erase_of_ne hm).trans hload
  rcases startUsb_cases path a r with ⟨-, -, hr⟩ | ⟨-, -, -, hr⟩ | ⟨-, -, -, -, hr⟩ | ⟨-, -, hr⟩
  · rw [hr]
  · rw [hr, errorStopDriver, replay_cons, replay_nil, UsbResources.after]
    split_ifs
    · exact hunload
    · exact hload
  · rw [hr, errorUsbstorVstor, errorStopDriver, replay_cons, replay_cons, replay_nil]
    simp only [UsbResources.after]
    split_ifs
    · exact hunload
    · exact hunload
    · exact hload
    · exact hload
  · rw [hr]
    exact hload

theorem startUsb_unnamed {m : ℤ} (path : CStr) {a : StartAnswers} (hm : m ≠ a.loadStartModule) (hnonneg : 0 ≤ m) :
    m ≠ (startUsb path a).1 := by
  rcases startUsb_cases path a .idle with ⟨-, hcode, -⟩ | ⟨-, -, hcode, -⟩ | ⟨-, -, -, hcode, -⟩ | ⟨-, hcode, -⟩
  · omega
  · omega
  · omega
  · rw [hcode]
    exact hm

/-- No module is loaded under the same id. -/
def LoadsOther (m : ℤ) (model : Model) (s : Plugin) (e : Event) : Prop :=
  ∀ b ∈ startOf model s e, m ≠ b.2.loadStartModule

theorem step_lost {m : ℤ} (e : Event) (h : s.Lost m) (he : LoadsOther m model s e) : (s.step model e).Lost m := by
  have hwork := step_usb model s e
  have hstopped : m ∈ (replay UsbResources.after s.usbResources
      (stopCalls s.usbdeviceModid (stopOf model s e))).modules := by
    cases stopOf model s e with
    | none => exact h.loaded
    | some a => exact stopUsb_modules h.unnamed a h.loaded
  unfold LoadsOther at he
  cases hstart : startOf model s e with
  | none =>
    rw [hstart] at hwork
    refine ⟨?_, h.nonneg, ?_⟩
    · rw [hwork.resources]
      exact hstopped
    · rw [hwork.modid]
      exact h.unnamed
  | some b =>
    rw [hstart] at hwork he
    have hother := he b rfl
    refine ⟨?_, h.nonneg, ?_⟩
    · rw [hwork.resources]
      exact (startUsb_modules b.1 hother _).mpr hstopped
    · rw [hwork.modid]
      exact startUsb_unnamed b.1 hother h.nonneg

def StopAnswers.Succeeds (a : StopAnswers) : Prop :=
  0 ≤ a.vstorStop ∧ 0 ≤ a.mtpStartDriver ∧ 0 ≤ a.stopUnloadModule

theorem stopUsb_active_modules (modid : ℤ) (a : StopAnswers) :
    modid ∈ (replay UsbResources.after ⟨true, true, [modid]⟩ (stopUsb modid a).2).modules ↔ ¬ a.Succeeds := by
  rw [stopUsb_resources, StopAnswers.Succeeds]
  split_ifs with hstop hmtp hunload
  · exact iff_of_true (List.mem_singleton_self modid) (by omega)
  · exact iff_of_true (List.mem_singleton_self modid) (by omega)
  · exact iff_of_true (List.mem_singleton_self modid) (by omega)
  · refine iff_of_false ?_ (by omega)
    simp

theorem stopOf_press {a : PressAnswers} (hstart : (startOf .vita s (.press a)).isSome) (hmodid : 0 ≤ s.usbdeviceModid) :
    stopOf .vita s (.press a) = some a.stop := by
  simp only [startOf] at hstart
  split_ifs at hstart with h
  · simp [stopOf, h.1, h.2.2.1, hmodid]
  · cases hstart

theorem startOf_press {a : PressAnswers} (hstart : (startOf .vita s (.press a)).isSome) :
    ∃ path, startOf .vita s (.press a) = some (path, a.start) := by
  simp only [startOf] at hstart ⊢
  split_ifs at hstart ⊢ with h
  · obtain ⟨b, hb⟩ := Option.isSome_iff_exists.mp hstart
    obtain ⟨path, -, rfl⟩ := Option.map_eq_some_iff.mp hb
    exact ⟨path, hb⟩
  · cases hstart

/-- **A start during a session loses the module of the session.** A press during a session that comes to `startUsb`
loses the module exactly when the `stopUsb` before it does not come through, and no event unloads a lost module as
long as no other module is loaded under its id. -/
theorem press_loses_module {a : PressAnswers} (hs : s.Together) (hstarted : s.started = true)
    (hstart : (startOf .vita s (.press a)).isSome) (hother : s.usbdeviceModid ≠ a.start.loadStartModule) :
    ((s.step .vita (.press a)).Lost s.usbdeviceModid ↔ ¬ a.stop.Succeeds) ∧
      ∀ events, ¬ a.stop.Succeeds →
        EachStep (LoadsOther s.usbdeviceModid .vita) (Plugin.step .vita) (s.step .vita (.press a)) events →
        AtEveryPoint (Plugin.Lost s.usbdeviceModid) (Plugin.step .vita) (s.step .vita (.press a)) events := by
  have hactive : 0 ≤ s.usbdeviceModid ∧ s.usbResources = ⟨true, true, [s.usbdeviceModid]⟩ := by
    rcases hs with hidle | hactive
    · rw [started_of_idle hidle] at hstarted
      cases hstarted
    · exact hactive
  obtain ⟨hmodid, hresources⟩ := hactive
  have hwork := step_usb .vita s (.press a)
  obtain ⟨path, hpath⟩ := startOf_press hstart
  rw [stopOf_press hstart hmodid, hpath] at hwork
  have hlost : (s.step .vita (.press a)).Lost s.usbdeviceModid ↔ ¬ a.stop.Succeeds := by
    constructor
    · intro h
      have hmem := h.loaded
      rw [hwork.resources, hresources] at hmem
      exact (stopUsb_active_modules s.usbdeviceModid a.stop).mp ((startUsb_modules path hother _).mp hmem)
    · intro hfails
      refine ⟨?_, hmodid, ?_⟩
      · rw [hwork.resources, hresources]
        exact (startUsb_modules path hother _).mpr ((stopUsb_active_modules s.usbdeviceModid a.stop).mpr hfails)
      · rw [hwork.modid]
        exact startUsb_unnamed path hother hmodid
  exact ⟨hlost, fun events hfails hevents =>
    atEveryPoint_of_invariant (fun _ e h he => step_lost e h he) (hlost.mpr hfails) hevents⟩

end Work

/-- A session is started; at the next press its storage is not stopped, and a second module is loaded. -/
theorem press_loses_module_twice :
    ((replay (Plugin.step .vita) (Plugin.start .vita false)
      [.press pressUp, .press { pressUp with stop := ⟨-1, 0, 0, fun _ => false⟩, start := ⟨2, 0, 0, 0, 0, 0, 0⟩ },
        .press { pressUp with start := ⟨3, 0, 0, 0, 0, 0, 0⟩ }]).Lost 1) := by
  have htogether : ((Plugin.start .vita false).step .vita (.press pressUp)).Together := by
    refine (step_together_iff _ (Or.inl rfl)).mpr ⟨nofun, ?_⟩
    intro b hb
    cases hb
    exact ⟨fun _ h => absurd ⟨Or.inl (le_refl 0), le_refl 0, le_refl 0, le_refl 0⟩ h, nofun⟩
  have hother : (1 : ℤ) ≠ 2 := by decide
  have hpress := (press_loses_module (a := { pressUp with
    stop := ⟨-1, 0, 0, fun _ => false⟩, start := ⟨2, 0, 0, 0, 0, 0, 0⟩ }) htogether rfl rfl hother).2
  have hfails : ¬ StopAnswers.Succeeds ⟨-1, 0, 0, fun _ => false⟩ := fun h => absurd h.1 (by decide)
  refine hpress [.press { pressUp with start := ⟨3, 0, 0, 0, 0, 0, 0⟩ }] hfails ?_ 1
  refine eachStep_cons ?_ eachStep_nil
  intro b hb
  cases hb
  show (1 : ℤ) ≠ 3
  decide

end VitaConnect.Modes
