import VitaConnect.Ftp.ListRoot
import VitaConnect.Modes.Handlers

/-! # The devices that LIST shows (`do_net_connected`, `send_LIST`)

`do_net_connected` registers 18 devices in a table of 16 slots and does not look at what
`ftpvita_add_device` answers. The last two are lost in every run.
-/
namespace VitaConnect.Modes
open CString Program Ftp Storage
set_option autoImplicit false

/-! ## What is registered -/

theorem addDevices_devices (devices : List CStr) (s : Server) :
    (addDevices devices s).devices = s.devices.addAll devices := by
  induction devices generalizing s with
  | nil => rfl
  | cons devname devices ih =>
    have hadd := congrArg Prod.snd (ftpvitaAddDevice_devices devname s)
    change _ = (ftpvitaAddDevice devname s).2.devices at hadd
    rw [addDevices, List.foldl_cons]
    change (addDevices devices (ftpvitaAddDevice devname s).2).devices = _
    rw [ih, ← hadd]
    rfl

theorem filterMap_getElem_range (n : ℕ) (names : List CStr) :
    (List.range n).filterMap (fun i => names[i]?) = names.take n := by
  induction n with
  | zero => rfl
  | succ n ih =>
    have hlast : [n].filterMap (fun i => names[i]?) = names[n]?.toList := by
      rw [List.filterMap_cons]
      cases names[n]? <;> rfl
    rw [List.range_succ, List.filterMap_append, ih, hlast, List.take_add_one]

/-- A table without valid slots takes as many devices as it has slots. -/
theorem deviceNames_addDevices (devices : List CStr) {s : Server}
    (h : ∀ i, (s.deviceList i).valid = false) :
    (addDevices devices s).deviceNames = devices.take maxDevices := by
  have hstale : ∀ i, s.devices i = .stale (s.deviceList i).name := by
    intro i
    show (s.deviceList i).slot = _
    rw [DeviceSlot.slot, h i]
    rfl
  have hlive : ∀ i, (s.devices i).isLive = true ↔ i.val < 0 := by
    intro i
    rw [hstale i]
    simp [Slot.isLive]
  have hslots : ∀ i : Fin maxDevices, ((addDevices devices s).devices i).liveName = devices[i.val]? := by
    intro i
    rw [addDevices_devices, addAll_apply devices hlive i, if_neg (Nat.not_lt_zero _), Nat.sub_zero,
      hstale i]
    cases devices[i.val]? <;> rfl
  rw [deviceNames_eq, ← filterMap_getElem_range, ← List.map_coe_finRange_eq_range, List.filterMap_map]
  congr 1
  funext i
  exact hslots i

theorem doNetConnected_deviceNames {s : Plugin} {a : InitAnswers}
    (hinit : (ftpvitaInit a s.server).1 = 0) :
    (doNetConnected a s).server.deviceNames = netDevices.take maxDevices := by
  rw [doNetConnected, if_pos hinit.ge]
  exact deviceNames_addDevices netDevices (ftpvitaInit_cleared hinit).1

/-! ## What is listed -/

/-- The line of a device that `sceIoGetstat` knows. -/
def deviceLine (env : Env) (devname : CStr) : Option CStr :=
  (env.sceIoGetstat (some devname)).map fun stat => lineOf env (true, stat, devname)

theorem listedDevices_lines (env : Env) :
    (listedDevices env).map (lineOf env) = env.deviceList.filterMap (deviceLine env) := by
  rw [listedDevices, List.map_filterMap]
  congr 1
  funext devname
  rw [deviceLine, Option.map_map]
  rfl

/-- LIST sends the line of each registered device that exists once, and no other line. -/
def ListsDevices (env : Env) (t : Session) : Prop :=
  ∃ u lines, cmdListFunc env t = .ok ⟨⟩ u ∧ dataTexts u.trace = dataTexts t.trace ++ lines ∧
    lines.Perm (netDevices.filterMap (deviceLine env))

/-- **When LIST shows every device that is registered.** The two devices for which the table has no
slot do not exist. -/
theorem listsDevices_iff {s : Plugin} {a : InitAnswers} (hinit : (ftpvitaInit a s.server).1 = 0)
    {env : Env} {t : Session} (hdevices : env.deviceList = (doNetConnected a s).server.deviceNames)
    (hargs : t.client.recvCmdArgs.length ≤ 511)
    (hroot : listPath env t.client.curPath t.client.recvCmdArgs = [slash]) :
    ListsDevices env t ↔ env.sceIoGetstat (some (bytes "music0:")) = none ∧
      env.sceIoGetstat (some (bytes "photo0:")) = none := by
  obtain ⟨u, hrun, htexts⟩ := cmdListFunc_root hargs hroot
  rw [listedDevices_lines, hdevices, doNetConnected_deviceNames hinit] at htexts
  have hsplit : netDevices = netDevices.take maxDevices ++ [bytes "music0:", bytes "photo0:"] := by
    decide
  have hall : netDevices.filterMap (deviceLine env) =
      (netDevices.take maxDevices).filterMap (deviceLine env) ++
        [bytes "music0:", bytes "photo0:"].filterMap (deviceLine env) := by
    conv_lhs => rw [hsplit]
    exact List.filterMap_append
  have hlost : [bytes "music0:", bytes "photo0:"].filterMap (deviceLine env) = [] ↔
      env.sceIoGetstat (some (bytes "music0:")) = none ∧
        env.sceIoGetstat (some (bytes "photo0:")) = none := by
    simp [List.filterMap_eq_nil_iff, deviceLine]
  rw [← hlost]
  constructor
  · rintro ⟨u', lines, hrun', htexts', hperm⟩
    obtain ⟨-, rfl⟩ := EStateM.Result.ok.inj (hrun.symm.trans hrun')
    obtain rfl := List.append_cancel_left (htexts.symm.trans htexts')
    have hlen := hperm.length_eq
    rw [hall, List.length_append] at hlen
    exact List.eq_nil_of_length_eq_zero (by omega)
  · intro hnil
    refine ⟨u, _, hrun, htexts, ?_⟩
    rw [hall, hnil, List.append_nil]

/-- The file system has the devices of `names`. -/
def withDevices (names : List CStr) (env : Env) : Env :=
  { env with
    deviceList := (doNetConnected networkUp (Plugin.start .vita true)).server.deviceNames
    sceIoGetstat := fun path => if path ∈ names.map some then some ⟨0, ⟨2024, 1, 1, 0, 0⟩⟩ else none }

theorem listsDevices_card :
    (ftpvitaInit networkUp (Plugin.start .vita true).server).1 = 0 ∧
      ListsDevices (withDevices [bytes "ux0:"] calmEnv) newSession := by
  have hinit : (ftpvitaInit networkUp (Plugin.start .vita true).server).1 = 0 := by decide
  exact ⟨hinit, (listsDevices_iff (s := Plugin.start .vita true) hinit (t := newSession) rfl (by decide)
    (by decide)).mpr ⟨by decide, by decide⟩⟩

/-- A music partition is not listed. -/
theorem listsDevices_music :
    (doNetConnected networkUp (Plugin.start .vita true)).server.deviceNames.length = 16 ∧
      bytes "music0:" ∈ netDevices ∧
      bytes "music0:" ∉ (doNetConnected networkUp (Plugin.start .vita true)).server.deviceNames ∧
      ¬ ∀ (s : Plugin) (a : InitAnswers) (env : Env) (t : Session), (ftpvitaInit a s.server).1 = 0 →
        env.deviceList = (doNetConnected a s).server.deviceNames →
        t.client.recvCmdArgs.length ≤ 511 →
        listPath env t.client.curPath t.client.recvCmdArgs = [slash] → ListsDevices env t := by
  have hinit : (ftpvitaInit networkUp (Plugin.start .vita true).server).1 = 0 := by decide
  have hnames := doNetConnected_deviceNames (s := Plugin.start .vita true) hinit
  refine ⟨?_, by decide, ?_, fun hall => ?_⟩
  · rw [hnames]
    decide
  · rw [hnames]
    decide
  · have hlists := hall (Plugin.start .vita true) networkUp (withDevices [bytes "music0:"] calmEnv)
      newSession hinit rfl (by decide) (by decide)
    have hnone := ((listsDevices_iff (s := Plugin.start .vita true) hinit rfl (by decide)
      (by decide)).mp hlists).1
    exact absurd hnone (by decide)

end VitaConnect.Modes
