import VitaConnect.Modes.Running

/-! # The server and the USB storage session

On a handheld console the two exclude each other as long as each event that selects FTP ends the session
there is. The handlers do not look at what `stopUsb` returns: when the session is still there behind such
an event, one press of the button starts the server beside it.
-/
namespace VitaConnect.Modes
open Program Ftp
set_option autoImplicit false

def Plugin.started (s : Plugin) : Bool := session false s.usbCalls

def Plugin.Exclusive (s : Plugin) : Prop := ¬ (s.run = true ∧ s.started = true)

/-- An event that selects FTP during a session comes to `sceUsbstorVStorStop`, and the call succeeds. -/
def StopsSession (s : Plugin) : Event → Prop
  | .toggle checkbox a =>
    checkbox ≠ 0 → s.started = true → s.usbdeviceOff = false ∧ 0 ≤ a.vstorStop
  | .buttonLoad checkbox a =>
    checkbox ≠ 0 → s.started = true → 0 ≤ s.usbdeviceModid ∧ 0 ≤ a.vstorStop
  | _ => True

theorem stopDevice_started (a : StopAnswers) (s : Plugin) :
    (stopDevice a s).started = (s.started && decide (a.vstorStop < 0)) := by
  rw [Plugin.started, stopDevice, session_append, session_stopUsb]
  rfl

/-! ## Handlers that select nothing and start no session -/

/-- The mode is the same behind the handler, and it has not started a session. -/
structure Quiet (s t : Plugin) : Prop where
  selectWifiUsb : t.selectWifiUsb = s.selectWifiUsb
  started : t.started = true → s.started = true

section Quiet
variable {s t u : Plugin}

theorem Quiet.trans (h : Quiet s t) (h' : Quiet t u) : Quiet s u :=
  ⟨h'.selectWifiUsb.trans h.selectWifiUsb, fun hu => h.started (h'.started hu)⟩

theorem quiet_of_calls (hselect : t.selectWifiUsb = s.selectWifiUsb) (hcalls : t.usbCalls = s.usbCalls) :
    Quiet s t := by
  refine ⟨hselect, fun ht => ?_⟩
  rw [Plugin.started, hcalls] at ht
  exact ht

theorem quiet_of_stopDevice (a : StopAnswers) (hselect : t.selectWifiUsb = s.selectWifiUsb)
    (hcalls : t.usbCalls = (stopDevice a s).usbCalls) : Quiet s t := by
  refine ⟨hselect, fun ht => ?_⟩
  rw [Plugin.started, hcalls] at ht
  have hs := stopDevice_started a s
  rw [Plugin.started, ht] at hs
  exact (Bool.and_eq_true_iff.mp hs.symm).1

theorem checkWifiPlane_quiet (r : Registry) (s : Plugin) : Quiet s (checkWifiPlane r s) := by
  unfold checkWifiPlane
  split_ifs <;> exact quiet_of_calls rfl rfl

theorem doNetConnected_quiet (a : InitAnswers) (s : Plugin) : Quiet s (doNetConnected a s) := by
  unfold doNetConnected
  dsimp only
  split_ifs <;> exact quiet_of_calls rfl rfl

theorem pressServer_quiet (a : PressAnswers) (s : Plugin) : Quiet s (pressServer a s) := by
  unfold pressServer
  split_ifs
  · exact quiet_of_calls rfl rfl
  · exact (checkWifiPlane_quiet a.registry s).trans (doNetConnected_quiet a.init _)

theorem netctlCb_quiet (model : Model) (eventType : ℤ) (a : StopAnswers) (s : Plugin) :
    Quiet s (netctlCb model eventType a s) := by
  unfold netctlCb
  split_ifs
  · exact quiet_of_calls rfl rfl
  · exact quiet_of_calls rfl rfl
  · exact quiet_of_stopDevice a rfl rfl
  · exact quiet_of_calls rfl rfl
  · exact quiet_of_calls rfl rfl

theorem monitorTick_quiet (r : Registry) (cable : Cable) (a : StopAnswers) (s : Plugin) :
    Quiet s (monitorTick r cable a s) := by
  have hchecked : Quiet s (if s.sMesg then s else checkWifiPlane r s) := by
    split_ifs
    · exact quiet_of_calls rfl rfl
    · exact checkWifiPlane_quiet r s
  unfold monitorTick
  dsimp only
  split_ifs at hchecked ⊢
  · exact quiet_of_stopDevice a rfl rfl
  · exact hchecked
  · exact hchecked.trans (quiet_of_stopDevice a rfl rfl)
  · exact hchecked

theorem messageText_quiet (model : Model) (s : Plugin) : Quiet s (messageText model s) := by
  unfold messageText
  split_ifs <;> exact quiet_of_calls rfl rfl

end Quiet

/-! ## Exclusion -/

structure Plugin.Apart (s : Plugin) : Prop where
  inv : s.Inv .vita
  usb : s.started = true → s.selectWifiUsb = false

theorem Plugin.Apart.exclusive {s : Plugin} (h : s.Apart) : s.Exclusive := by
  rintro ⟨hrun, hstarted⟩
  have hselect := h.inv.selected rfl hrun
  rw [h.usb hstarted] at hselect
  cases hselect

variable {s t : Plugin}

theorem Plugin.Apart.usb_of_quiet (h : s.Apart) (hquiet : Quiet s t) :
    t.started = true → t.selectWifiUsb = false :=
  fun ht => hquiet.selectWifiUsb.trans (h.usb (hquiet.started ht))

theorem onPressFtp_usb (a : PressAnswers) (h : s.Apart) :
    (onPressFtp .vita a s).started = true → (onPressFtp .vita a s).selectWifiUsb = false := by
  unfold onPressFtp
  split_ifs
  · exact h.usb
  · dsimp only
    split_ifs with hselect
    · have hquiet := pressServer_quiet a { s with onPressedFtp := true, toggle := false }
      exact h.usb_of_quiet ⟨hquiet.selectWifiUsb, hquiet.started⟩
    · intro _
      exact (pressUsb_keeps a _).2.2.trans (Bool.eq_false_of_not_eq_true hselect)

theorem onButtonFtpLoad_usb (checkbox : ℤ) (a : StopAnswers)
    (hstops : StopsSession s (.buttonLoad checkbox a)) :
    (onButtonFtpLoad .vita checkbox a s).started = true →
      (onButtonFtpLoad .vita checkbox a s).selectWifiUsb = false := by
  unfold onButtonFtpLoad
  dsimp only
  split_ifs with hselect hmodid
  · intro hstarted
    rw [stopDevice_started, Bool.and_eq_true_iff, decide_eq_true_iff] at hstarted
    have hret := (hstops (of_decide_eq_true hselect) hstarted.1).2
    omega
  · intro hstarted
    exact absurd (hstops (of_decide_eq_true hselect) hstarted).1 hmodid
  · exact fun _ => Bool.eq_false_of_not_eq_true hselect
  · exact fun _ => Bool.eq_false_of_not_eq_true hselect

theorem onToggleCheckBoxFtpUsb_usb (checkbox : ℤ) (a : StopAnswers)
    (hstops : StopsSession s (.toggle checkbox a)) :
    (onToggleCheckBoxFtpUsb checkbox a s).started = true →
      (onToggleCheckBoxFtpUsb checkbox a s).selectWifiUsb = false := by
  unfold onToggleCheckBoxFtpUsb
  dsimp only
  split_ifs with hselect hoff
  · intro hstarted
    have hon := (hstops (of_decide_eq_true hselect) hstarted).1
    rw [hon] at hoff
    cases hoff
  · intro hstarted
    have hstop := (stopDevice_started a s).symm.trans hstarted
    rw [Bool.and_eq_true_iff, decide_eq_true_iff] at hstop
    have hret := (hstops (of_decide_eq_true hselect) hstop.1).2
    omega
  · exact fun _ => Bool.eq_false_of_not_eq_true hselect
  · exact fun _ => Bool.eq_false_of_not_eq_true hselect

theorem step_apart (e : Event) (h : s.Apart) (hstops : StopsSession s e) :
    (s.step .vita e).Apart := by
  refine ⟨step_inv e h.inv, ?_⟩
  cases e with
  | press a => exact onPressFtp_usb a h
  | pressSelect =>
    simp only [Plugin.step, onPressSelect]
    split_ifs <;> exact h.usb
  | buttonLoad checkbox a => exact onButtonFtpLoad_usb checkbox a hstops
  | toggle checkbox a => exact onToggleCheckBoxFtpUsb_usb checkbox a hstops
  | netctl eventType a => exact h.usb_of_quiet (netctlCb_quiet .vita eventType a s)
  | tick r cable a => exact h.usb_of_quiet (monitorTick_quiet r cable a s)
  | message =>
    simp only [Plugin.step]
    split
    · exact h.usb
    · exact h.usb_of_quiet ((messageText_quiet .vita s).trans (quiet_of_calls rfl rfl))
  | messageEnd =>
    simp only [Plugin.step]
    split <;> exact h.usb
  | announce code => exact h.usb
  | refreshing on => exact h.usb

/-! ## A session that is not stopped -/

/-- A press on which the network is up and the server starts. -/
def pressUp : PressAnswers where
  registry := ⟨1, 0⟩
  init := ⟨⟨0, Int.le_refl 0⟩, none, ⟨0, Int.le_refl 0⟩, ⟨0, Int.le_refl 0⟩, ⟨0, Int.le_refl 0⟩, []⟩
  stop := ⟨0, 0, 0, fun _ => false⟩
  cable := ⟨true, false⟩
  fileExist := fun _ => true
  start := ⟨1, 0, 0, 0, 0, 0, 0⟩

theorem doNetConnected_run {a : InitAnswers} (hinit : (ftpvitaInit a s.server).1 = 0) :
    (doNetConnected a s).run = true := by
  rw [doNetConnected, if_pos hinit.ge]
  rfl

theorem pressServer_run (hrun : s.run = false) (hinit : s.server.ftpInitialized = false) :
    (pressServer pressUp s).run = true := by
  rw [pressServer, if_neg (by simp [hrun])]
  apply doNetConnected_run
  rw [ftpvitaInit, if_neg (by simp [checkWifiPlane, pressUp, hinit])]
  rfl

theorem pressServer_usbCalls (hrun : s.run = false) :
    (pressServer pressUp s).usbCalls = s.usbCalls := by
  rw [pressServer, if_neg (by simp [hrun]), doNetConnected]
  dsimp only
  split_ifs <;> rfl

/-- FTP is selected and a session is there: one press more and the server runs beside it. -/
theorem press_not_exclusive (h : s.Inv .vita) (hselect : s.selectWifiUsb = true)
    (hstarted : s.started = true) :
    ∃ more, ¬ (replay (Plugin.step .vita) s more).Exclusive := by
  by_cases hrun : s.run = true
  · exact ⟨[], fun hexclusive => hexclusive ⟨hrun, hstarted⟩⟩
  · rw [Bool.not_eq_true] at hrun
    have hinit : s.server.ftpInitialized = false := h.agrees ▸ hrun
    refine ⟨[.refreshing false, .press pressUp], fun hexclusive => hexclusive ?_⟩
    have hpress : replay (Plugin.step .vita) s [.refreshing false, .press pressUp] = pressServer pressUp
        { s with refreshOnOff := false, onPressedFtp := true, toggle := false } := by
      simp [replay, Plugin.step, onPressFtp, hselect]
    rw [hpress]
    refine ⟨pressServer_run hrun hinit, ?_⟩
    rw [Plugin.started, pressServer_usbCalls]
    · exact hstarted
    · exact hrun

theorem started_of_not_stopsSession {e : Event} (h : ¬ StopsSession s e) :
    (s.step .vita e).selectWifiUsb = true ∧ (s.step .vita e).started = true := by
  cases e with
  | toggle checkbox a =>
    simp only [StopsSession, Classical.not_imp, not_and, not_le] at h
    obtain ⟨hcheckbox, hstarted, hret⟩ := h
    simp only [Plugin.step, onToggleCheckBoxFtpUsb, hcheckbox, ne_eq, not_false_eq_true, decide_true,
      if_true]
    split_ifs with hoff
    · exact ⟨rfl, hstarted⟩
    · refine ⟨rfl, (stopDevice_started a s).trans ?_⟩
      rw [hstarted, decide_eq_true (hret (Bool.eq_false_of_not_eq_true hoff))]
      rfl
  | buttonLoad checkbox a =>
    simp only [StopsSession, Classical.not_imp, not_and, not_le] at h
    obtain ⟨hcheckbox, hstarted, hret⟩ := h
    simp only [Plugin.step, onButtonFtpLoad, hcheckbox, ne_eq, not_false_eq_true, decide_true, if_true]
    split_ifs with hmodid
    · refine ⟨rfl, (stopDevice_started a s).trans ?_⟩
      rw [hstarted, decide_eq_true (hret hmodid)]
      rfl
    · exact ⟨rfl, hstarted⟩
  | press a => exact absurd trivial h
  | pressSelect => exact absurd trivial h
  | netctl eventType a => exact absurd trivial h
  | tick r cable a => exact absurd trivial h
  | message => exact absurd trivial h
  | messageEnd => exact absurd trivial h
  | announce code => exact absurd trivial h
  | refreshing on => exact absurd trivial h

/-- **The server and the USB session exclude each other as far as sessions are stopped.** In a run in
which every event that selects FTP stops the session there is, the two are never active together; and
each run in which an event does not stop it goes on to a state in which they are. -/
theorem exclusive_while_stopped (checkbox : Bool) (events : List Event) :
    (EachStep StopsSession (Plugin.step .vita) (Plugin.start .vita checkbox) events →
        AtEveryPoint Plugin.Exclusive (Plugin.step .vita) (Plugin.start .vita checkbox) events) ∧
      ∀ e, ¬ StopsSession (replay (Plugin.step .vita) (Plugin.start .vita checkbox) events) e →
        ∃ more, ¬ (replay (Plugin.step .vita) (Plugin.start .vita checkbox)
          (events ++ e :: more)).Exclusive := by
  constructor
  · intro hevents
    have hapart : AtEveryPoint Plugin.Apart (Plugin.step .vita) (Plugin.start .vita checkbox) events :=
      atEveryPoint_of_invariant (fun _ e h hstops => step_apart e h hstops)
        ⟨inv_of_stopped rfl rfl, nofun⟩ hevents
    exact hapart.mono fun _ h => h.exclusive
  · intro e he
    obtain ⟨hselect, hstarted⟩ := started_of_not_stopsSession he
    obtain ⟨more, hmore⟩ :=
      press_not_exclusive (step_inv e (run_inv .vita checkbox events)) hselect hstarted
    refine ⟨more, ?_⟩
    rw [replay, List.foldl_append]
    exact hmore

/-- The button starts a session, the checkbox selects FTP with a `sceUsbstorVStorStop` that fails, and
the button starts the server. -/
theorem not_exclusive_when_stop_fails :
    ¬ AtEveryPoint Plugin.Exclusive (Plugin.step .vita) (Plugin.start .vita false)
      [.press pressUp, .toggle 1 ⟨-1, 0, 0, fun _ => false⟩, .press pressUp] := by
  intro h
  exact h 3 ⟨rfl, rfl⟩

end VitaConnect.Modes
