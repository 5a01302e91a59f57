import VitaConnect.Modes.Notices

/-! # What the button tells (`BUTTON_ACTIVATE`)

The label of the button is set by the handlers of the settings page and by the message threads. A message thread
sets it for the server only when it finds `onPressedFTP`, which a press of the button and a change of the network
set. The monitor stops the server without setting it.
-/
namespace VitaConnect.Modes
open Program Ftp
set_option autoImplicit false

/-! ## The label -/

inductive ActivateLabel
  | ftpEnable | ftpDisable | usbEnable | usbDisable
  deriving DecidableEq

def serverLabel (run : Bool) : ActivateLabel := if run then .ftpEnable else .ftpDisable

/-- The label that an event sets; a message thread reads the cable at its end. -/
def setsLabel (model : Model) (disconnected : Bool) (s : Plugin) : Event → Option ActivateLabel
  | .buttonLoad checkbox _ =>
    match model with
    | .vita =>
      if checkbox ≠ 0 then some (serverLabel s.run)
      else if s.usbdeviceOff ∨ s.usbdeviceModid < 0 then some .usbDisable
      else some .usbEnable
    | .vitaTv => some (serverLabel s.run)
  | .toggle checkbox _ => some (if checkbox ≠ 0 then .ftpDisable else .usbDisable)
  | .message =>
    if s.messages = 0 then none
    else if s.selectWifiUsb ∧ model = .vita then
      if s.toggle then none
      else if s.onPressedFtp then some (serverLabel s.run)
      else none
    else if model = .vitaTv ∧ s.onPressedFtp then some (serverLabel s.run)
    else none
  | .messageEnd =>
    if s.delayed = 0 then none
    else if s.TellsDevice model ∧ s.toggle = false then
      some (if disconnected ∨ s.usbdeviceOff then .usbDisable else .usbEnable)
    else none
  | _ => none

structure Activate where
  plugin : Plugin
  label : Option ActivateLabel

def Activate.start (model : Model) (checkbox : Bool) : Activate := ⟨Plugin.start model checkbox, none⟩

/-- An event, and whether the cable is disconnected where a message thread reads it. -/
def Activate.step (model : Model) (s : Activate) (e : Event × Bool) : Activate where
  plugin := s.plugin.step model e.1
  label := (setsLabel model e.2 s.plugin e.1).or s.label

/-! ## What it should tell -/

/-- The button is the one of the server. -/
def Plugin.ServesFtp (model : Model) (s : Plugin) : Prop := model = .vitaTv ∨ s.selectWifiUsb = true

/-- A message thread that comes to its text sets the label for the server. -/
def Plugin.Relabels (model : Model) (s : Plugin) : Prop :=
  s.onPressedFtp = true ∧ (model = .vita → s.toggle = false)

/-- In FTP mode a label that has been set says whether the server runs, or a message thread is about to set it. -/
def Activate.Tells (model : Model) (s : Activate) : Prop :=
  s.plugin.ServesFtp model →
    ∀ l ∈ s.label, l = serverLabel s.plugin.run ∨ 0 < s.plugin.messages ∧ s.plugin.Relabels model

/-- The checkbox is on the settings page of a handheld console only. -/
def Registered (model : Model) : Event → Prop
  | .toggle _ _ => model = .vita
  | _ => True

/-- The monitor stops no server that the button shows, unless the next message thread sets the label; and FTP is
not selected once more while the server runs, unless a message thread is about to set the label. -/
def Activate.Careful (model : Model) (s : Activate) (e : Event × Bool) : Prop :=
  match e.1 with
  | .tick r _ _ =>
    s.plugin.ServesFtp model → s.plugin.run = true → s.plugin.sMesg = false → r.wifi = 0 ∨ r.plane ≠ 0 →
      s.label = none ∨ s.plugin.Relabels model
  | .toggle checkbox _ =>
    checkbox ≠ 0 → s.plugin.run = true →
      s.plugin.usbdeviceOff = true ∧ 0 < s.plugin.messages ∧ s.plugin.Relabels model
  | _ => True

/-- The invariant of the runs that are careful. -/
structure Activate.Steady (model : Model) (s : Activate) : Prop where
  tells : s.Tells model
  toggle : model = .vita → s.plugin.run = true → s.plugin.toggle = false

/-! ## The ways to tell -/

section Tells
variable {model : Model} {s t : Activate}

theorem tells_of_label (h : t.label = some (serverLabel t.plugin.run)) : t.Tells model := by
  intro _ l hl
  rw [h] at hl
  exact Or.inl (Option.some.inj hl).symm

theorem tells_of_awaited (hmessages : 0 < t.plugin.messages) (hrelabels : t.plugin.Relabels model) :
    t.Tells model :=
  fun _ _ _ => Or.inr ⟨hmessages, hrelabels⟩

theorem tells_of_serves (h : t.plugin.ServesFtp model → t.Tells model) : t.Tells model :=
  fun hftp => h hftp hftp

theorem tells_of_usb (hmodel : model = .vita) (hselect : t.plugin.selectWifiUsb = false) : t.Tells model := by
  rintro (htv | hftp)
  · rw [hmodel] at htv
    cases htv
  · rw [hselect] at hftp
    cases hftp

/-- The label and the server are as before, and a message thread that would have set the label still does. -/
theorem Activate.Tells.kept (h : s.Tells model) (hlabel : t.label = s.label)
    (hserves : t.plugin.ServesFtp model → s.plugin.ServesFtp model) (hrun : t.plugin.run = s.plugin.run)
    (hrelabels : 0 < s.plugin.messages → s.plugin.Relabels model →
      0 < t.plugin.messages ∧ t.plugin.Relabels model) : t.Tells model := by
  intro hftp l hl
  rw [hlabel] at hl
  rw [hrun]
  exact (h (hserves hftp) l hl).imp_right fun hawaited => hrelabels hawaited.1 hawaited.2

end Tells

/-! ## What the handlers do to the server and the messages -/

section Handlers
variable {model : Model} {s : Plugin}

/-- The server runs as before, or a message thread has been started. -/
structure Prompts (s t : Plugin) : Prop where
  onPressedFtp : t.onPressedFtp = s.onPressedFtp
  toggle : t.toggle = s.toggle
  messages : s.messages ≤ t.messages
  told : t.run = s.run ∨ 0 < t.messages

theorem Prompts.relabels_iff {t : Plugin} (h : Prompts s t) : t.Relabels model ↔ s.Relabels model := by
  rw [Plugin.Relabels, h.onPressedFtp, h.toggle]
  rfl

theorem checkWifiPlane_prompts (r : Registry) : Prompts s (checkWifiPlane r s) := by
  unfold checkWifiPlane
  split_ifs
  · exact ⟨rfl, rfl, Nat.le_succ _, Or.inr (Nat.succ_pos _)⟩
  · exact ⟨rfl, rfl, le_rfl, Or.inl rfl⟩

theorem doNetConnected_prompts (a : InitAnswers) : Prompts s (doNetConnected a s) := by
  unfold doNetConnected
  dsimp only
  split_ifs
  · exact ⟨rfl, rfl, Nat.le_succ _, Or.inr (Nat.succ_pos _)⟩
  · exact ⟨rfl, rfl, le_rfl, Or.inl rfl⟩

theorem pressServer_prompts (a : PressAnswers) : Prompts s (pressServer a s) := by
  unfold pressServer
  split_ifs
  · exact ⟨rfl, rfl, Nat.le_succ _, Or.inr (Nat.succ_pos _)⟩
  · have hcheck := checkWifiPlane_prompts (s := s) a.registry
    have hconnect := doNetConnected_prompts (s := checkWifiPlane a.registry s) a.init
    refine ⟨hconnect.onPressedFtp.trans hcheck.onPressedFtp, hconnect.toggle.trans hcheck.toggle,
      hcheck.messages.trans hconnect.messages, ?_⟩
    rcases hcheck.told with hrun | hpos
    · exact hconnect.told.imp_left fun h => h.trans hrun
    · exact Or.inr (hpos.trans_le hconnect.messages)

theorem monitorTick_prompts (r : Registry) (cable : Cable) (a : StopAnswers) :
    Prompts s (monitorTick r cable a s) := by
  have hchecked : Prompts s (if s.sMesg then s else checkWifiPlane r s) := by
    split_ifs
    · exact ⟨rfl, rfl, le_rfl, Or.inl rfl⟩
    · exact checkWifiPlane_prompts r
  unfold monitorTick
  dsimp only
  generalize (if s.sMesg then s else checkWifiPlane r s) = u at hchecked ⊢
  split_ifs
  · exact ⟨hchecked.onPressedFtp, hchecked.toggle, Nat.le_succ_of_le hchecked.messages, Or.inr (Nat.succ_pos _)⟩
  · exact hchecked

theorem monitorTick_run (r : Registry) (cable : Cable) (a : StopAnswers) :
    (monitorTick r cable a s).run = true ↔
      s.run = true ∧ (s.sMesg = false → ¬ (r.wifi = 0 ∨ r.plane ≠ 0)) := by
  have hchecked : (if s.sMesg then s else checkWifiPlane r s).run = true ↔
      s.run = true ∧ (s.sMesg = false → ¬ (r.wifi = 0 ∨ r.plane ≠ 0)) := by
    unfold checkWifiPlane
    split_ifs with hsMesg hoff
    · simp [hsMesg]
    · simp [hsMesg, startThread, stopServer, hoff]
    · simp [hsMesg, hoff]
  unfold monitorTick
  dsimp only
  generalize (if s.sMesg then s else checkWifiPlane r s) = u at hchecked ⊢
  split_ifs <;> exact hchecked

theorem monitorTick_run_of_stops {r : Registry} (cable : Cable) (a : StopAnswers)
    (h : s.sMesg = false ∧ (r.wifi = 0 ∨ r.plane ≠ 0)) : (monitorTick r cable a s).run = false := by
  rw [← Bool.not_eq_true, monitorTick_run]
  exact fun hrun => hrun.2 h.1 h.2

theorem monitorTick_run_of_not {r : Registry} (cable : Cable) (a : StopAnswers)
    (h : ¬ (s.run = true ∧ s.sMesg = false ∧ (r.wifi = 0 ∨ r.plane ≠ 0))) :
    (monitorTick r cable a s).run = s.run := by
  rw [Bool.eq_iff_iff, monitorTick_run]
  exact ⟨fun hrun => hrun.1, fun hrun => ⟨hrun, fun hsMesg hoff => h ⟨hrun, hsMesg, hoff⟩⟩⟩

end Handlers

/-! ## One event -/

section Events
variable {model : Model} {s : Activate}

theorem activate_step_same {e : Event × Bool} (hplugin : s.plugin.step model e.1 = s.plugin)
    (hlabel : setsLabel model e.2 s.plugin e.1 = none) : Activate.step model s e = s := by
  rw [Activate.step, hplugin, hlabel]
  rfl

/-- The label for the server stands, or the message thread that has been started sets it. -/
theorem Activate.Tells.prompted {t : Activate} {u : Plugin} (h : s.Tells model) (hprompts : Prompts u t.plugin)
    (hrelabels : u.Relabels model) (hrun : u.run = s.plugin.run) (hmessages : u.messages = s.plugin.messages)
    (hlabel : t.label = s.label) (hserves : t.plugin.ServesFtp model → s.plugin.ServesFtp model) :
    t.Tells model := by
  have hrelabelsT : t.plugin.Relabels model := hprompts.relabels_iff.mpr hrelabels
  rcases hprompts.told with hsame | hpos
  · refine h.kept hlabel hserves (hsame.trans hrun) fun hawaited _ => ⟨?_, hrelabelsT⟩
    exact (hmessages ▸ hawaited).trans_le hprompts.messages
  · exact tells_of_awaited hpos hrelabelsT

theorem press_tells (a : PressAnswers) (b : Bool) (h : s.Steady model) :
    (Activate.step model s (.press a, b)).Tells model := by
  by_cases hrefresh : s.plugin.refreshOnOff = true
  · have hplugin : (Activate.step model s (.press a, b)).plugin =
        startThread { s.plugin with runUsb := 12 } := if_pos hrefresh
    refine h.tells.kept rfl ?_ ?_ ?_
    · rw [hplugin]
      exact id
    · rw [hplugin]
      rfl
    · rw [hplugin]
      exact fun _ hrelabels => ⟨Nat.succ_pos _, hrelabels⟩
  cases model with
  | vita =>
    by_cases hselect : s.plugin.selectWifiUsb = true
    · have hplugin : (Activate.step .vita s (.press a, b)).plugin =
          pressServer a { s.plugin with onPressedFtp := true, toggle := false } := by
        simp [Activate.step, Plugin.step, onPressFtp, hrefresh, hselect]
      have hprompts := pressServer_prompts (s := { s.plugin with onPressedFtp := true, toggle := false }) a
      rw [← hplugin] at hprompts
      exact h.tells.prompted hprompts ⟨rfl, fun _ => rfl⟩ rfl rfl rfl fun _ => Or.inr hselect
    · have hplugin : (Activate.step .vita s (.press a, b)).plugin =
          pressUsb a { s.plugin with onPressedFtp := true, toggle := false } := by
        simp [Activate.step, Plugin.step, onPressFtp, hrefresh, hselect]
      apply tells_of_usb rfl
      rw [hplugin, (pressUsb_keeps a _).2.2]
      exact Bool.eq_false_of_not_eq_true hselect
  | vitaTv =>
    have hplugin : (Activate.step .vitaTv s (.press a, b)).plugin =
        pressServer a { s.plugin with onPressedFtp := true } := by
      simp [Activate.step, Plugin.step, onPressFtp, hrefresh]
    have hprompts := pressServer_prompts (s := { s.plugin with onPressedFtp := true }) a
    rw [← hplugin] at hprompts
    exact h.tells.prompted hprompts ⟨rfl, fun hmodel => absurd hmodel (by simp)⟩ rfl rfl rfl fun _ => Or.inl rfl

theorem onButtonFtpLoad_selectWifiUsb (checkbox : ℤ) (a : StopAnswers) (p : Plugin) :
    (onButtonFtpLoad .vita checkbox a p).selectWifiUsb = decide (checkbox ≠ 0) := by
  unfold onButtonFtpLoad
  dsimp only
  split_ifs <;> rfl

theorem onButtonFtpLoad_run {checkbox : ℤ} (h : checkbox ≠ 0) (a : StopAnswers) (p : Plugin) :
    (onButtonFtpLoad .vita checkbox a p).run = p.run := by
  unfold onButtonFtpLoad
  dsimp only
  rw [if_pos (decide_eq_true h)]
  split_ifs <;> rfl

theorem onToggleCheckBoxFtpUsb_selectWifiUsb (checkbox : ℤ) (a : StopAnswers) (p : Plugin) :
    (onToggleCheckBoxFtpUsb checkbox a p).selectWifiUsb = decide (checkbox ≠ 0) := by
  unfold onToggleCheckBoxFtpUsb
  dsimp only
  split_ifs <;> rfl

theorem buttonLoad_tells (checkbox : ℤ) (a : StopAnswers) (b : Bool) :
    (Activate.step model s (.buttonLoad checkbox a, b)).Tells model := by
  cases model with
  | vitaTv => exact tells_of_label rfl
  | vita =>
    by_cases hcheckbox : checkbox = 0
    · apply tells_of_usb rfl
      rw [Activate.step, Plugin.step, onButtonFtpLoad_selectWifiUsb]
      exact decide_eq_false (not_not.mpr hcheckbox)
    · apply tells_of_label
      rw [Activate.step, Plugin.step, onButtonFtpLoad_run hcheckbox]
      simp [setsLabel, hcheckbox]

/-- The checkbox sets the label as if the server had been stopped. -/
theorem toggle_tells_iff (checkbox : ℤ) (a : StopAnswers) (b : Bool) (hmodel : model = .vita) :
    (Activate.step model s (.toggle checkbox a, b)).Tells model ↔
      s.Careful model (.toggle checkbox a, b) := by
  subst hmodel
  by_cases hcheckbox : checkbox = 0
  · refine iff_of_true ?_ fun hnot => absurd hcheckbox hnot
    apply tells_of_usb rfl
    rw [Activate.step, Plugin.step, onToggleCheckBoxFtpUsb_selectWifiUsb]
    exact decide_eq_false (not_not.mpr hcheckbox)
  · have hplugin : (Activate.step .vita s (.toggle checkbox a, b)).plugin =
        if s.plugin.usbdeviceOff then { s.plugin with selectWifiUsb := true }
        else startThread { stopDevice a { s.plugin with selectWifiUsb := true } with toggle := true } := by
      simp [Activate.step, Plugin.step, onToggleCheckBoxFtpUsb, hcheckbox]
    have hlabel : (Activate.step .vita s (.toggle checkbox a, b)).label = some .ftpDisable := by
      simp [Activate.step, setsLabel, hcheckbox]
    rw [Activate.Tells, hplugin, hlabel]
    cases hoff : s.plugin.usbdeviceOff <;> cases hrun : s.plugin.run <;>
      simp [Activate.Careful, Plugin.ServesFtp, Plugin.Relabels, serverLabel, startThread, stopDevice,
        hcheckbox, hoff, hrun]

theorem netctl_tells (eventType : ℤ) (a : StopAnswers) (b : Bool) (h : s.Steady model) :
    (Activate.step model s (.netctl eventType a, b)).Tells model := by
  have hkept (hsame : s.plugin.step model (.netctl eventType a) = s.plugin) :
      (Activate.step model s (.netctl eventType a, b)).Tells model := by
    rw [activate_step_same hsame rfl]
    exact h.tells
  by_cases hchanged : (eventType = 1 ∨ eventType = 2 ∨ eventType = 3) ∧ s.plugin.runUsb = 0
  · by_cases hselect : s.plugin.selectWifiUsb = true
    · by_cases hrun : s.plugin.run = true
      · have hplugin : (Activate.step model s (.netctl eventType a, b)).plugin =
            startThread { stopServer s.plugin with onPressedFtp := true } := by
          simp only [Activate.step, Plugin.step, netctlCb, if_pos hchanged, if_pos hselect, if_pos hrun]
        apply tells_of_awaited
        · rw [hplugin]
          exact Nat.succ_pos _
        · rw [hplugin]
          exact ⟨rfl, fun hmodel => h.toggle hmodel hrun⟩
      · apply hkept
        simp only [Plugin.step, netctlCb, if_pos hchanged, if_pos hselect, if_neg hrun]
    · by_cases husb : model = .vita ∧ s.plugin.usbdeviceOff = false
      · apply tells_of_usb husb.1
        simp only [Activate.step, Plugin.step, netctlCb, if_pos hchanged, if_neg hselect, if_pos husb]
        exact Bool.eq_false_of_not_eq_true hselect
      · apply hkept
        simp only [Plugin.step, netctlCb, if_pos hchanged, if_neg hselect, if_neg husb]
  · apply hkept
    simp only [Plugin.step, netctlCb, if_neg hchanged]

/-- The monitor stops a server behind the label that says that it runs. -/
theorem tick_tells_iff (r : Registry) (cable : Cable) (a : StopAnswers) (b : Bool) (h : s.Steady model) :
    (Activate.step model s (.tick r cable a, b)).Tells model ↔ s.Careful model (.tick r cable a, b) := by
  let t := Activate.step model s (.tick r cable a, b)
  have hserves : t.plugin.ServesFtp model ↔ s.plugin.ServesFtp model := by
    rw [Plugin.ServesFtp, Plugin.ServesFtp, ← (monitorTick_quiet r cable a s.plugin).selectWifiUsb]
    rfl
  have hprompts : Prompts s.plugin t.plugin := monitorTick_prompts r cable a
  by_cases hstops : s.plugin.run = true ∧ s.plugin.sMesg = false ∧ (r.wifi = 0 ∨ r.plane ≠ 0)
  · have hstopped : t.plugin.run = false := monitorTick_run_of_stops cable a hstops.2
    have hpos : 0 < t.plugin.messages := hprompts.told.resolve_left (by rw [hstopped, hstops.1]; simp)
    constructor
    · intro htells hftp _ _ _
      by_contra hnot
      rw [not_or] at hnot
      obtain ⟨l, hl⟩ := Option.ne_none_iff_exists'.mp hnot.1
      have hbefore := (h.tells hftp l hl).resolve_right fun hawaited => hnot.2 hawaited.2
      have hbehind := (htells (hserves.mpr hftp) l hl).resolve_right fun hawaited =>
        hnot.2 (hprompts.relabels_iff.mp hawaited.2)
      rw [hbefore, hstops.1, hstopped] at hbehind
      cases hbehind
    · intro hcareful hftp l hl
      rcases hcareful (hserves.mp hftp) hstops.1 hstops.2.1 hstops.2.2 with hnone | hrelabels
      · exact absurd (hl.symm.trans hnone) (Option.some_ne_none l)
      · exact Or.inr ⟨hpos, hprompts.relabels_iff.mpr hrelabels⟩
  · refine iff_of_true ?_ fun _ hrun hsMesg hoff => absurd ⟨hrun, hsMesg, hoff⟩ hstops
    refine h.tells.kept rfl hserves.mp (monitorTick_run_of_not cable a hstops) fun hpos hrelabels => ⟨?_, ?_⟩
    · exact hpos.trans_le hprompts.messages
    · exact hprompts.relabels_iff.mpr hrelabels

/-- In FTP mode a message thread sets the label just when it finds `onPressedFTP`, and `toggle` no more. -/
theorem message_label (b : Bool) (hmessages : s.plugin.messages ≠ 0) (hftp : s.plugin.ServesFtp model) :
    setsLabel model b s.plugin .message = some (serverLabel s.plugin.run) ∧ s.plugin.Relabels model ∨
      setsLabel model b s.plugin .message = none ∧ ¬ s.plugin.Relabels model := by
  cases model with
  | vita =>
    have hselect : s.plugin.selectWifiUsb = true := hftp.resolve_left (by simp)
    cases htoggle : s.plugin.toggle <;> cases hpressed : s.plugin.onPressedFtp <;>
      simp [setsLabel, Plugin.Relabels, hmessages, hselect, htoggle, hpressed]
  | vitaTv =>
    cases hpressed : s.plugin.onPressedFtp <;> simp [setsLabel, Plugin.Relabels, hmessages, hpressed]

theorem message_keeps : (s.plugin.step model .message).run = s.plugin.run ∧
    (s.plugin.step model .message).selectWifiUsb = s.plugin.selectWifiUsb := by
  obtain ⟨hrun, -, hselect⟩ := messageText_keeps model s.plugin
  simp only [Plugin.step]
  split
  · exact ⟨rfl, rfl⟩
  · exact ⟨hrun, hselect⟩

theorem message_tells (b : Bool) (h : s.Steady model) : (Activate.step model s (.message, b)).Tells model := by
  by_cases hnone : s.plugin.messages = 0
  · rw [activate_step_same (by simp [Plugin.step, hnone]) (by simp [setsLabel, hnone])]
    exact h.tells
  · apply tells_of_serves
    intro hafter
    have hftp : s.plugin.ServesFtp model := by
      rw [Activate.step, Plugin.ServesFtp, message_keeps.2] at hafter
      exact hafter
    rcases message_label b hnone hftp with ⟨hlabel, -⟩ | ⟨hlabel, hnot⟩
    · apply tells_of_label
      rw [Activate.step, hlabel, message_keeps.1]
      rfl
    · refine h.tells.kept ?_ (fun _ => hftp) message_keeps.1 fun _ hrelabels => absurd hrelabels hnot
      rw [Activate.step, hlabel]
      rfl

/-- Behind its delay a message thread sets the label for the other mode only. -/
theorem messageEnd_tells (b : Bool) (h : s.Steady model) :
    (Activate.step model s (.messageEnd, b)).Tells model := by
  by_cases hnone : s.plugin.delayed = 0
  · rw [activate_step_same (by simp [Plugin.step, hnone]) (by simp [setsLabel, hnone])]
    exact h.tells
  obtain ⟨n, hn⟩ := Nat.exists_eq_succ_of_ne_zero hnone
  have hplugin : s.plugin.step model .messageEnd = { s.plugin with delayed := n, runUsb := 0 } := by
    simp [Plugin.step, hn]
  by_cases hdevice : s.plugin.TellsDevice model
  · apply tells_of_usb hdevice.1
    rw [Activate.step, hplugin]
    exact hdevice.2
  · have hlabel : setsLabel model b s.plugin .messageEnd = none := by
      simp [setsLabel, hnone, hdevice]
    apply h.tells.kept
    all_goals rw [Activate.step, hplugin]
    · rw [hlabel]
      rfl
    · exact id
    · exact fun hpos hrelabels => ⟨hpos, hrelabels⟩

theorem pressSelect_tells (b : Bool) (h : s.Steady model) :
    (Activate.step model s (.pressSelect, b)).Tells model := by
  by_cases hcounts : model = .vita ∧ s.plugin.selectWifiUsb = false
  · apply tells_of_usb hcounts.1
    simp [Activate.step, Plugin.step, onPressSelect, hcounts.1, hcounts.2]
  · rw [activate_step_same _ rfl]
    · exact h.tells
    · cases model with
      | vitaTv => rfl
      | vita =>
        have hselect : s.plugin.selectWifiUsb = true := by simpa using hcounts
        simp [Plugin.step, onPressSelect, hselect]

theorem activate_step_tells_iff (e : Event × Bool) (h : s.Steady model) (hregistered : Registered model e.1) :
    (Activate.step model s e).Tells model ↔ s.Careful model e := by
  obtain ⟨e, b⟩ := e
  cases e with
  | press a => exact iff_of_true (press_tells a b h) trivial
  | pressSelect => exact iff_of_true (pressSelect_tells b h) trivial
  | buttonLoad checkbox a => exact iff_of_true (buttonLoad_tells checkbox a b) trivial
  | toggle checkbox a => exact toggle_tells_iff checkbox a b hregistered
  | netctl eventType a => exact iff_of_true (netctl_tells eventType a b h) trivial
  | tick r cable a => exact tick_tells_iff r cable a b h
  | message => exact iff_of_true (message_tells b h) trivial
  | messageEnd => exact iff_of_true (messageEnd_tells b h) trivial
  | announce code =>
    refine iff_of_true ?_ trivial
    exact h.tells.kept rfl id rfl fun _ hrelabels => ⟨Nat.succ_pos _, hrelabels⟩
  | refreshing on =>
    refine iff_of_true ?_ trivial
    exact h.tells.kept rfl id rfl fun hpos hrelabels => ⟨hpos, hrelabels⟩

/-! ## `toggle` while the server runs -/

theorem initUsb_toggle (fileExist : CString.CStr → Bool) (a : StartAnswers) (p : Plugin) :
    (initUsb fileExist a p).toggle = p.toggle := by
  unfold initUsb
  dsimp only
  split
  · rfl
  · split <;> rfl

theorem pressUsb_toggle (a : PressAnswers) (p : Plugin) : (pressUsb a p).toggle = p.toggle := by
  unfold pressUsb
  dsimp only
  split_ifs with hconnected hmodid
  · exact initUsb_toggle a.fileExist a.start { stopDevice a.stop p with usbdeviceOff := true }
  · exact initUsb_toggle a.fileExist a.start p
  all_goals rfl

theorem onPressFtp_toggle (a : PressAnswers) {p : Plugin} (h : p.run = true → p.toggle = false) :
    (onPressFtp .vita a p).run = true → (onPressFtp .vita a p).toggle = false := by
  unfold onPressFtp
  split_ifs
  · exact h
  · dsimp only
    split_ifs
    · exact fun _ => (pressServer_prompts a).toggle
    · exact fun _ => pressUsb_toggle a _

theorem onToggleCheckBoxFtpUsb_toggle (checkbox : ℤ) (a : StopAnswers) {p : Plugin}
    (h : p.run = true → p.toggle = false)
    (hoff : checkbox ≠ 0 → p.run = true → p.usbdeviceOff = true) :
    (onToggleCheckBoxFtpUsb checkbox a p).run = true → (onToggleCheckBoxFtpUsb checkbox a p).toggle = false := by
  unfold onToggleCheckBoxFtpUsb
  dsimp only
  split_ifs with hselect husb hrun
  · exact h
  · exact fun hrun => absurd (hoff (of_decide_eq_true hselect) hrun) husb
  · exact fun hrun => Bool.noConfusion hrun
  · exact h

theorem activate_step_toggle (e : Event) {p : Plugin} (h : p.run = true → p.toggle = false)
    (hoff : ∀ checkbox a, e = .toggle checkbox a → checkbox ≠ 0 → p.run = true → p.usbdeviceOff = true) :
    (p.step .vita e).run = true → (p.step .vita e).toggle = false := by
  cases e with
  | press a => exact onPressFtp_toggle a h
  | pressSelect =>
    simp only [Plugin.step, onPressSelect]
    split_ifs <;> exact h
  | buttonLoad checkbox a =>
    simp only [Plugin.step, onButtonFtpLoad]
    split_ifs
    · exact h
    · exact h
    · exact fun _ => rfl
    · exact h
  | toggle checkbox a => exact onToggleCheckBoxFtpUsb_toggle checkbox a h (hoff checkbox a rfl)
  | netctl eventType a =>
    simp only [Plugin.step, netctlCb]
    split_ifs
    · exact fun hrun => Bool.noConfusion hrun
    all_goals exact h
  | tick r cable a =>
    intro hrun
    exact (monitorTick_prompts r cable a).toggle.trans (h ((monitorTick_run r cable a).mp hrun).1)
  | message =>
    intro hrun
    have htoggle : (p.step .vita .message).toggle = p.toggle := by
      simp only [Plugin.step, messageText]
      split
      · rfl
      · split_ifs <;> rfl
    rw [htoggle]
    exact h ((message_keeps (s := ⟨p, none⟩)).1.symm.trans hrun)
  | messageEnd =>
    simp only [Plugin.step]
    split <;> exact h
  | announce code => exact h
  | refreshing on => exact h

theorem Activate.Steady.step {e : Event × Bool} (h : s.Steady model) (hregistered : Registered model e.1)
    (hcareful : s.Careful model e) : (Activate.step model s e).Steady model := by
  refine ⟨(activate_step_tells_iff e h hregistered).mpr hcareful, ?_⟩
  rintro rfl
  apply activate_step_toggle e.1 (h.toggle rfl)
  intro checkbox a he hcheckbox hrun
  rw [Activate.Careful, he] at hcareful
  exact (hcareful hcheckbox hrun).1

end Events

/-! ## Whole runs -/

theorem start_steady (model : Model) (checkbox : Bool) : (Activate.start model checkbox).Steady model :=
  ⟨fun _ _ hl => absurd hl (by simp [Activate.start]), fun _ hrun => Bool.noConfusion hrun⟩

/-- The page is loaded, the button starts the server, and its message thread sets the label. -/
def servingEvents : List (Event × Bool) :=
  [(.buttonLoad 1 pressUp.stop, false), (.press pressUp, false), (.message, false)]

/-- Then the WiFi is switched off, and the monitor stops the server. -/
def wifiOff : Event × Bool := (.tick ⟨0, 0⟩ pressUp.cable pressUp.stop, false)

end VitaConnect.Modes
