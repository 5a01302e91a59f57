import VitaConnect.Program.History
import VitaConnect.Modes.Handlers

/-! # The variable `run` and the server

`run` says that the server is initialised, behind every event and on both consoles, and on a handheld
console the server runs only while FTP is the selected mode. A handler either leaves the three variables
alone, stops the server, or starts it where the other mode is not selected.
-/
namespace VitaConnect.Modes
open Program Ftp
set_option autoImplicit false

/-! ## What the server's functions do to `ftp_initialized` -/

theorem errorNetctlgetinfo_ftpInitialized (s : Server) :
    (errorNetctlgetinfo s).ftpInitialized = s.ftpInitialized := by
  unfold errorNetctlgetinfo errorNetctlinit errorNetinit freeMemory netTerm netCtlTerm
  split <;> split_ifs <;> rfl

theorem errorNetctlinit_ftpInitialized (s : Server) :
    (errorNetctlinit s).ftpInitialized = s.ftpInitialized := by
  unfold errorNetctlinit errorNetinit freeMemory netTerm
  split <;> split_ifs <;> rfl

theorem errorNetinit_ftpInitialized (s : Server) :
    (errorNetinit s).ftpInitialized = s.ftpInitialized := by
  unfold errorNetinit freeMemory
  split <;> rfl

theorem initNetCtl_ftpInitialized (a : InitAnswers) (s : Server) :
    (initNetCtl a s).1 = 0 ∧ (initNetCtl a s).2.ftpInitialized = true ∨
      (initNetCtl a s).1 < 0 ∧ (initNetCtl a s).2.ftpInitialized = s.ftpInitialized := by
  unfold initNetCtl
  dsimp only
  split_ifs with hfail hinfo
  · exact Or.inr ⟨hfail.1, errorNetctlinit_ftpInitialized _⟩
  · exact Or.inr ⟨hinfo, errorNetctlgetinfo_ftpInitialized _⟩
  · exact Or.inl ⟨rfl, rfl⟩

/-- A call answers 0 and has initialised the server, or it answers an error and has not. -/
theorem ftpvitaInit_ftpInitialized (a : InitAnswers) (s : Server) :
    (ftpvitaInit a s).1 = 0 ∧ (ftpvitaInit a s).2.ftpInitialized = true ∨
      (ftpvitaInit a s).1 < 0 ∧ (ftpvitaInit a s).2.ftpInitialized = s.ftpInitialized := by
  unfold ftpvitaInit
  split_ifs with hinit hstat hnotinit hneg
  · exact Or.inr ⟨Int.negSucc_lt_zero 0, rfl⟩
  · exact initNetCtl_ftpInitialized a _
  · exact Or.inr ⟨hneg, errorNetinit_ftpInitialized _⟩
  · exact initNetCtl_ftpInitialized a _
  · exact Or.inr ⟨lt_of_le_of_ne a.sceNetShowNetstat.property hstat, rfl⟩

theorem ftpvitaFini_ftpInitialized (s : Server) : (ftpvitaFini s).ftpInitialized = false := by
  by_cases hinit : s.ftpInitialized = true
  · rw [ftpvitaFini, if_pos hinit]
  · rw [ftpvitaFini, if_neg hinit]
    exact Bool.eq_false_of_not_eq_true hinit

theorem addDevices_ftpInitialized (devices : List CString.CStr) (s : Server) :
    (addDevices devices s).ftpInitialized = s.ftpInitialized := by
  induction devices generalizing s with
  | nil => rfl
  | cons devname devices ih =>
    rw [addDevices, List.foldl_cons, ← addDevices, ih, ftpvitaAddDevice]
    split <;> rfl

/-! ## The invariant -/

structure Plugin.Inv (model : Model) (s : Plugin) : Prop where
  agrees : s.run = s.server.ftpInitialized
  selected : model = .vita → s.run = true → s.selectWifiUsb = true

section Rules
variable {model : Model} {s t : Plugin}

theorem Plugin.Inv.congr (h : s.Inv model) (hrun : t.run = s.run) (hserver : t.server = s.server)
    (hselect : t.selectWifiUsb = s.selectWifiUsb) : t.Inv model := by
  constructor
  · rw [hrun, hserver]
    exact h.agrees
  · rw [hrun, hselect]
    exact h.selected

theorem inv_of_stopped (hrun : t.run = false) (hserver : t.server.ftpInitialized = false) :
    t.Inv model := by
  constructor
  · rw [hrun, hserver]
  · intro _ htrue
    rw [hrun] at htrue
    cases htrue

theorem inv_stopServer (hrun : t.run = false) (hserver : t.server = ftpvitaFini s.server) :
    t.Inv model :=
  inv_of_stopped hrun (hserver ▸ ftpvitaFini_ftpInitialized s.server)

end Rules

/-! ## Each handler keeps it -/

variable {model : Model} {s : Plugin}

theorem checkWifiPlane_inv (r : Registry) (h : s.Inv model) : (checkWifiPlane r s).Inv model := by
  unfold checkWifiPlane
  split_ifs
  · exact inv_stopServer (s := s) rfl rfl
  · exact h

theorem checkWifiPlane_selectWifiUsb (r : Registry) :
    (checkWifiPlane r s).selectWifiUsb = s.selectWifiUsb := by
  unfold checkWifiPlane
  split_ifs <;> rfl

theorem doNetConnected_inv (a : InitAnswers) (h : s.Inv model)
    (hselect : model = .vita → s.selectWifiUsb = true) : (doNetConnected a s).Inv model := by
  unfold doNetConnected
  dsimp only
  rcases ftpvitaInit_ftpInitialized a s.server with ⟨hret, hinit⟩ | ⟨hret, hinit⟩
  · rw [if_pos hret.ge]
    refine ⟨?_, fun hmodel _ => hselect hmodel⟩
    exact (hinit.symm.trans (addDevices_ftpInitialized _ _).symm)
  · rw [if_neg hret.not_ge]
    exact ⟨h.agrees.trans hinit.symm, h.selected⟩

theorem pressServer_inv (a : PressAnswers) (h : s.Inv model)
    (hselect : model = .vita → s.selectWifiUsb = true) : (pressServer a s).Inv model := by
  unfold pressServer
  split_ifs
  · exact inv_stopServer (s := s) rfl rfl
  · apply doNetConnected_inv
    · exact checkWifiPlane_inv a.registry h
    · rw [checkWifiPlane_selectWifiUsb]
      exact hselect

theorem initUsb_keeps (fileExist : CString.CStr → Bool) (a : StartAnswers) (s : Plugin) :
    (initUsb fileExist a s).run = s.run ∧ (initUsb fileExist a s).server = s.server ∧
      (initUsb fileExist a s).selectWifiUsb = s.selectWifiUsb := by
  unfold initUsb
  dsimp only
  split
  · exact ⟨rfl, rfl, rfl⟩
  · split <;> exact ⟨rfl, rfl, rfl⟩

theorem pressUsb_keeps (a : PressAnswers) (s : Plugin) :
    (pressUsb a s).run = s.run ∧ (pressUsb a s).server = s.server ∧
      (pressUsb a s).selectWifiUsb = s.selectWifiUsb := by
  unfold pressUsb
  dsimp only
  split_ifs with hconnected hmodid
  · exact initUsb_keeps a.fileExist a.start { stopDevice a.stop s with usbdeviceOff := true }
  · exact initUsb_keeps a.fileExist a.start s
  all_goals exact ⟨rfl, rfl, rfl⟩

theorem onPressFtp_inv (a : PressAnswers) (h : s.Inv model) : (onPressFtp model a s).Inv model := by
  unfold onPressFtp
  split_ifs
  · exact h.congr rfl rfl rfl
  · cases model with
    | vita =>
      dsimp only
      split_ifs with hselect
      · exact pressServer_inv a (h.congr rfl rfl rfl) fun _ => hselect
      · obtain ⟨hrun, hserver, hsel⟩ :=
          pressUsb_keeps a { s with onPressedFtp := true, toggle := false }
        exact h.congr hrun hserver hsel
    | vitaTv => exact pressServer_inv a (h.congr rfl rfl rfl) nofun

/-- With FTP selected the server may run; without it the handlers stop it. -/
theorem onButtonFtpLoad_inv (checkbox : ℤ) (a : StopAnswers) (h : s.Inv model) :
    (onButtonFtpLoad model checkbox a s).Inv model := by
  unfold onButtonFtpLoad
  cases model with
  | vitaTv => exact h
  | vita =>
    dsimp only
    split_ifs with hselect hmodid hrun
    · exact ⟨h.agrees, fun _ _ => hselect⟩
    · exact ⟨h.agrees, fun _ _ => hselect⟩
    · exact inv_stopServer (s := s) rfl rfl
    · exact ⟨h.agrees, fun _ htrue => absurd htrue hrun⟩

theorem onToggleCheckBoxFtpUsb_inv (checkbox : ℤ) (a : StopAnswers) (h : s.Inv model) :
    (onToggleCheckBoxFtpUsb checkbox a s).Inv model := by
  unfold onToggleCheckBoxFtpUsb
  dsimp only
  split_ifs with hselect hoff hrun
  · exact ⟨h.agrees, fun _ _ => hselect⟩
  · exact ⟨h.agrees, fun _ _ => hselect⟩
  · exact inv_stopServer (s := s) rfl rfl
  · exact ⟨h.agrees, fun _ htrue => absurd htrue hrun⟩

theorem netctlCb_inv (eventType : ℤ) (a : StopAnswers) (h : s.Inv model) :
    (netctlCb model eventType a s).Inv model := by
  unfold netctlCb
  split_ifs
  · exact inv_stopServer (s := s) rfl rfl
  · exact h
  · exact h.congr rfl rfl rfl
  · exact h
  · exact h

theorem monitorTick_inv (r : Registry) (cable : Cable) (a : StopAnswers) (h : s.Inv model) :
    (monitorTick r cable a s).Inv model := by
  have hchecked : (if s.sMesg then s else checkWifiPlane r s).Inv model := by
    split_ifs
    · exact h
    · exact checkWifiPlane_inv r h
  unfold monitorTick
  dsimp only
  generalize (if s.sMesg then s else checkWifiPlane r s) = u at hchecked ⊢
  split_ifs
  · exact hchecked.congr rfl rfl rfl
  · exact hchecked

theorem messageText_keeps (model : Model) (s : Plugin) :
    (messageText model s).run = s.run ∧ (messageText model s).server = s.server ∧
      (messageText model s).selectWifiUsb = s.selectWifiUsb := by
  unfold messageText
  split_ifs <;> exact ⟨rfl, rfl, rfl⟩

theorem step_inv (e : Event) (h : s.Inv model) : (s.step model e).Inv model := by
  cases e with
  | press a => exact onPressFtp_inv a h
  | pressSelect =>
    cases model with
    | vitaTv => exact h
    | vita =>
      simp only [Plugin.step, onPressSelect]
      split_ifs
      · exact h
      · exact h.congr rfl rfl rfl
  | buttonLoad checkbox a => exact onButtonFtpLoad_inv checkbox a h
  | toggle checkbox a => exact onToggleCheckBoxFtpUsb_inv checkbox a h
  | netctl eventType a => exact netctlCb_inv eventType a h
  | tick r cable a => exact monitorTick_inv r cable a h
  | message =>
    obtain ⟨hrun, hserver, hselect⟩ := messageText_keeps model s
    simp only [Plugin.step]
    split
    · exact h
    · exact h.congr hrun hserver hselect
  | messageEnd =>
    simp only [Plugin.step]
    split
    · exact h
    · exact h.congr rfl rfl rfl
  | announce code => exact h.congr rfl rfl rfl
  | refreshing on => exact h.congr rfl rfl rfl

theorem run_inv (model : Model) (checkbox : Bool) (events : List Event) :
    (replay (Plugin.step model) (Plugin.start model checkbox) events).Inv model := by
  apply replay_invariant (C := fun _ _ => True)
  · exact fun s e h _ => step_inv e h
  · exact inv_of_stopped rfl rfl
  · exact fun _ _ _ => trivial

/-- **`run` is `ftp_initialized`.** Behind every event, on either console, the variable says whether the
server is initialised; and a handheld console serves only while FTP is the selected mode. -/
theorem run_iff_ftpInitialized (model : Model) (checkbox : Bool) (events : List Event) :
    let s := replay (Plugin.step model) (Plugin.start model checkbox) events
    (s.run = true ↔ s.server.ftpInitialized = true) ∧
      (model = .vita → s.run = true → s.selectWifiUsb = true) := by
  intro s
  have hinv : s.Inv model := run_inv model checkbox events
  refine ⟨?_, hinv.selected⟩
  rw [hinv.agrees]

end VitaConnect.Modes
