import VitaConnect.Licenses.Import
import VitaConnect.Modes.Exclusion
import VitaConnect.Program.Mailbox

/-! # What the user is told (`thread_user_message`)

`run_USB` holds the number of what the user is to be told. The handlers, `mountOthersPartition` and the
refresh thread set it; each message thread reads it when it starts, shows a text after a delay and sets it to
0. Message threads are started for other reasons too, and nothing keeps one from reading a number that
another one has read, or from clearing a number that none has read.
-/
namespace VitaConnect.Modes
open CString Ftp Program Licenses
set_option autoImplicit false

/-! ## The texts -/

/-- The variables of the server and of the refresh thread that a text is made of. -/
structure TextAnswers where
  vitaIp : CStr
  vitaPort : ℕ
  selectRefresh : Bool
  nbrRefreshItem : ℤ

def runUsbText (a : TextAnswers) : ℤ → Option CStr
  | 1 => some (bytes "VitaConnect: USB Mounted")
  | 2 => some (bytes "VitaConnect: USB Not Mounted (Error)")
  | 3 => some (bytes "VitaConnect: USB Umounted")
  | 4 => some (bytes "VitaConnect: USB Not Umounted (Error)")
  | 5 => some (bytes "VitaConnect: UMA0 Mounted")
  | 6 => some (bytes "VitaConnect: UMA0 Not Mounted (Error)")
  | 7 => some (bytes "VitaConnect: XMC0 Mounted")
  | 8 => some (bytes "VitaConnect: XMC0 Not Mounted (Error)")
  | 9 => some (bytes "VitaConnect: IMC0 Mounted")
  | 10 => some (bytes "VitaConnect: IMC0 Not Mounted (Error)")
  | 11 => some (bytes "VitaConnect: Please plug your USB Or PSVSD")
  | 12 => some (bytes "VitaConnect: Refresh In progress wait...")
  | 13 => some (userMessage a.selectRefresh a.nbrRefreshItem)
  | 14 => some (bytes "VitaConnect: Coming Soon :)")
  | _ => none

def serverText (a : TextAnswers) (s : Plugin) : CStr :=
  if s.run then bytes "IP: " ++ a.vitaIp ++ bytes "\nPort: " ++ natDec a.vitaPort
  else bytes "VitaConnect: FTP Disable"

/-- The text in front of the one for `run_USB`. -/
def modeText (model : Model) (a : TextAnswers) (s : Plugin) : CStr :=
  if s.selectWifiUsb ∧ model = .vita then
    if s.toggle then bytes "VitaConnect: USB Disable"
    else if s.onPressedFtp then serverText a s
    else []
  else if model = .vitaTv ∧ s.onPressedFtp then serverText a s
  else []

/-- The text behind the delay on a handheld console in USB mode. -/
def deviceText (disconnected : Bool) (s : Plugin) : CStr :=
  if s.toggle then bytes "VitaConnect: FTP Disable"
  else if disconnected then bytes "VitaConnect: Please Connect USB Cable to PC"
  else if s.usbdeviceOff then bytes "VitaConnect: USB Disable"
  else bytes "VitaConnect: USB Connected"

/-- `sendNotifText`, and the number in `run_USB` that it tells of. -/
structure Text where
  text : CStr
  code : Option ℤ

def firstText (model : Model) (a : TextAnswers) (s : Plugin) : Text :=
  match runUsbText a s.runUsb with
  | some text => ⟨text, some s.runUsb⟩
  | none => ⟨modeText model a s, none⟩

/-- The text for the device takes the place of any other. -/
def Plugin.TellsDevice (model : Model) (s : Plugin) : Prop := model = .vita ∧ s.selectWifiUsb = false

instance (model : Model) (s : Plugin) : Decidable (s.TellsDevice model) := inferInstanceAs (Decidable (_ ∧ _))

def lastText (model : Model) (disconnected : Bool) (s : Plugin) (t : Text) : Text :=
  if s.TellsDevice model then ⟨deviceText disconnected s, none⟩ else t

/-! ## The threads -/

structure Notices where
  plugin : Plugin
  /-- The texts of the message threads behind their first part. -/
  texts : List Text
  shown : List Text
  /-- No message thread has read `run_USB` since it was set. -/
  unread : Bool
  /-- The numbers that `run_USB` has been set to, those with a text. -/
  announced : List ℤ

def Notices.start (model : Model) (checkbox : Bool) : Notices where
  plugin := Plugin.start model checkbox
  texts := []
  shown := []
  unread := false
  announced := []

/-- The number in `run_USB`, when there is a text for it. -/
def announcement (runUsb : ℤ) : Option ℤ := if 1 ≤ runUsb ∧ runUsb ≤ 14 then some runUsb else none

/-- What a handler sets `run_USB` to. -/
def announces (s : Plugin) : Event → Option ℤ
  | .press _ => if s.refreshOnOff then some 12 else none
  | .announce code => some code
  | _ => none

/-- The events that are no step of a message thread. -/
def Event.OfHandler : Event → Prop
  | .message => False
  | .messageEnd => False
  | _ => True

inductive NoticeEvent
  /-- `mountOthersPartition` sets `run_USB` and starts no thread. -/
  | mounted (code : ℤ)
  | handler (e : Event) (he : e.OfHandler)
  | text (a : TextAnswers)
  | textEnd (k : ℕ) (disconnected : Bool)

def Notices.announce (code : ℤ) (plugin : Plugin) (s : Notices) : Notices :=
  { s with plugin := plugin, unread := true, announced := s.announced ++ (announcement code).toList }

def Notices.step (model : Model) (s : Notices) : NoticeEvent → Notices
  | .mounted code => s.announce code { s.plugin with runUsb := code }
  | .handler e _ =>
    match announces s.plugin e with
    | some code => s.announce code (s.plugin.step model e)
    | none => { s with plugin := s.plugin.step model e }
  | .text a =>
    if s.plugin.messages = 0 then s
    else
      { s with
        plugin := s.plugin.step model .message
        texts := s.texts ++ [firstText model a s.plugin]
        unread := false }
  | .textEnd k disconnected =>
    match s.texts[k]? with
    | none => s
    | some t =>
      let t := lastText model disconnected s.plugin t
      { s with
        plugin := s.plugin.step model .messageEnd
        texts := s.texts.eraseIdx k
        shown := s.shown ++ if t.text = [] then [] else [t] }

/-! ## What a text tells of -/

/-- A text that tells of a number is the one for that number. -/
def Text.Tells (t : Text) : Prop := ∀ code, t.code = some code → ∃ a, runUsbText a code = some t.text

theorem runUsbText_isSome (a : TextAnswers) (code : ℤ) :
    (runUsbText a code).isSome = true ↔ 1 ≤ code ∧ code ≤ 14 := by
  constructor
  · intro h
    unfold runUsbText at h
    split at h
    case h_15 => simp at h
    all_goals omega
  · rintro ⟨hlow, hhigh⟩
    interval_cases code <;> rfl

theorem userMessage_ne_nil (selectRefresh : Bool) (nbrRefreshItem : ℤ) :
    userMessage selectRefresh nbrRefreshItem ≠ [] := by
  unfold userMessage
  cases selectRefresh <;> simp [bytes]

theorem runUsbText_ne_nil {a : TextAnswers} {code : ℤ} {text : CStr} (h : runUsbText a code = some text) :
    text ≠ [] := by
  unfold runUsbText at h
  split at h
  case h_15 => cases h
  case h_13 =>
    cases h
    exact userMessage_ne_nil _ _
  all_goals
    cases h
    decide

theorem Text.Tells.ne_nil {t : Text} (h : t.Tells) {code : ℤ} (hcode : t.code = some code) : t.text ≠ [] := by
  obtain ⟨a, ha⟩ := h code hcode
  exact runUsbText_ne_nil ha

theorem tells_of_none {t : Text} (h : t.code = none) : t.Tells := by
  intro code hcode
  rw [h] at hcode
  cases hcode

section Texts
variable (model : Model) (a : TextAnswers) (disconnected : Bool) (s : Plugin)

theorem firstText_code : (firstText model a s).code = announcement s.runUsb := by
  have hsome := runUsbText_isSome a s.runUsb
  unfold firstText announcement
  cases htext : runUsbText a s.runUsb with
  | none => rw [if_neg (by rw [← hsome, htext]; simp)]
  | some text => rw [if_pos (by rw [← hsome, htext]; rfl)]

theorem firstText_tells : (firstText model a s).Tells := by
  unfold firstText
  cases htext : runUsbText a s.runUsb with
  | none => exact tells_of_none rfl
  | some text =>
    intro code hcode
    cases hcode
    exact ⟨a, htext⟩

theorem lastText_code (t : Text) :
    (lastText model disconnected s t).code = if s.TellsDevice model then none else t.code := by
  unfold lastText
  split_ifs <;> rfl

theorem lastText_tells {t : Text} (h : t.Tells) : (lastText model disconnected s t).Tells := by
  unfold lastText
  split_ifs
  · exact tells_of_none rfl
  · exact h

end Texts

/-- What is shown of a text: nothing of an empty one. -/
theorem shown_code {t : Text} (h : t.Tells) :
    (if t.text = [] then [] else [t]).filterMap Text.code = t.code.toList := by
  cases hcode : t.code with
  | none => split_ifs <;> simp [hcode]
  | some code => simp [h.ne_nil hcode, hcode]

/-! ## What the handlers leave alone -/

/-- `run_USB` and the message threads behind their first part are the same. -/
structure Silent (s t : Plugin) : Prop where
  runUsb : t.runUsb = s.runUsb
  delayed : t.delayed = s.delayed

section Silent
variable {s t u : Plugin} {model : Model}

theorem Silent.trans (h : Silent s t) (h' : Silent t u) : Silent s u :=
  ⟨h'.runUsb.trans h.runUsb, h'.delayed.trans h.delayed⟩

theorem checkWifiPlane_silent (r : Registry) : Silent s (checkWifiPlane r s) := by
  unfold checkWifiPlane
  split_ifs <;> exact ⟨rfl, rfl⟩

theorem doNetConnected_silent (a : InitAnswers) : Silent s (doNetConnected a s) := by
  unfold doNetConnected
  dsimp only
  split_ifs <;> exact ⟨rfl, rfl⟩

theorem initUsb_silent (fileExist : CStr → Bool) (a : StartAnswers) : Silent s (initUsb fileExist a s) := by
  unfold initUsb
  dsimp only
  split
  · exact ⟨rfl, rfl⟩
  · split <;> exact ⟨rfl, rfl⟩

theorem pressServer_silent (a : PressAnswers) : Silent s (pressServer a s) := by
  unfold pressServer
  split_ifs
  · exact ⟨rfl, rfl⟩
  · exact (checkWifiPlane_silent a.registry).trans (doNetConnected_silent a.init)

theorem pressUsb_silent (a : PressAnswers) : Silent s (pressUsb a s) := by
  unfold pressUsb
  dsimp only
  split_ifs
  · have h := initUsb_silent (s := { stopDevice a.stop s with usbdeviceOff := true }) a.fileExist a.start
    exact ⟨h.runUsb, h.delayed⟩
  · have h := initUsb_silent (s := s) a.fileExist a.start
    exact ⟨h.runUsb, h.delayed⟩
  all_goals exact ⟨rfl, rfl⟩

theorem onPressFtp_silent (a : PressAnswers) (h : s.refreshOnOff = false) :
    Silent s (onPressFtp model a s) := by
  unfold onPressFtp
  rw [if_neg (by simp [h])]
  cases model with
  | vita =>
    dsimp only
    split_ifs
    · have hpress := pressServer_silent (s := { s with onPressedFtp := true, toggle := false }) a
      exact ⟨hpress.runUsb, hpress.delayed⟩
    · have hpress := pressUsb_silent (s := { s with onPressedFtp := true, toggle := false }) a
      exact ⟨hpress.runUsb, hpress.delayed⟩
  | vitaTv =>
    have hpress := pressServer_silent (s := { s with onPressedFtp := true }) a
    exact ⟨hpress.runUsb, hpress.delayed⟩

theorem monitorTick_silent (r : Registry) (cable : Cable) (a : StopAnswers) :
    Silent s (monitorTick r cable a s) := by
  have hchecked : Silent s (if s.sMesg then s else checkWifiPlane r s) := by
    split_ifs
    · exact ⟨rfl, rfl⟩
    · exact checkWifiPlane_silent r
  unfold monitorTick
  dsimp only
  split_ifs at hchecked ⊢
  · exact ⟨rfl, rfl⟩
  · exact hchecked
  · exact hchecked.trans ⟨rfl, rfl⟩
  · exact hchecked

theorem step_silent {e : Event} (he : e.OfHandler) (h : announces s e = none) :
    Silent s (s.step model e) := by
  cases e with
  | press a =>
    apply onPressFtp_silent
    simpa [announces] using h
  | pressSelect =>
    simp only [Plugin.step, onPressSelect]
    split
    · split_ifs <;> exact ⟨rfl, rfl⟩
    · exact ⟨rfl, rfl⟩
  | buttonLoad checkbox a =>
    simp only [Plugin.step, onButtonFtpLoad]
    split
    · split_ifs <;> exact ⟨rfl, rfl⟩
    · exact ⟨rfl, rfl⟩
  | toggle checkbox a =>
    simp only [Plugin.step, onToggleCheckBoxFtpUsb]
    split_ifs <;> exact ⟨rfl, rfl⟩
  | netctl eventType a =>
    simp only [Plugin.step, netctlCb]
    split_ifs <;> exact ⟨rfl, rfl⟩
  | tick r cable a => exact monitorTick_silent r cable a
  | message => cases he
  | messageEnd => cases he
  | announce code => cases h
  | refreshing on => exact ⟨rfl, rfl⟩

theorem step_announces {e : Event} {code : ℤ} (h : announces s e = some code) :
    (s.step model e).runUsb = code ∧ (s.step model e).delayed = s.delayed := by
  cases e with
  | press a =>
    by_cases hon : s.refreshOnOff = true
    · simp only [announces, hon, if_true, Option.some.injEq] at h
      simp [Plugin.step, onPressFtp, hon, startThread, h]
    · simp [announces, hon] at h
  | announce code' =>
    cases h
    exact ⟨rfl, rfl⟩
  | _ => cases h

end Silent

/-! ## The mailbox -/

/-- The number in `run_USB` that no message thread has read. -/
def Notices.waiting (s : Notices) : List ℤ := if s.unread then (announcement s.plugin.runUsb).toList else []

/-- Every number that `run_USB` has been set to waits there, is told of by the text of one message thread or
has been shown, and none is in two places or twice in one. -/
def Notices.Conserved (s : Notices) : Prop :=
  s.announced.Perm (s.waiting ++ (s.texts.filterMap Text.code ++ s.shown.filterMap Text.code))

/-- `run_USB` is set when no number waits there; it is read when one does, or when it holds none; a thread
ends when none waits, and its text for the device takes the place of no other. -/
def Notices.Careful (model : Model) (s : Notices) : NoticeEvent → Prop
  | .mounted _ => s.waiting = []
  | .handler e _ => announces s.plugin e ≠ none → s.waiting = []
  | .text _ => s.plugin.messages ≠ 0 → announcement s.plugin.runUsb = none ∨ s.unread = true
  | .textEnd k _ =>
    ∀ t, s.texts[k]? = some t → s.waiting = [] ∧ (s.plugin.TellsDevice model → t.code = none)

def Notices.mailbox (s : Notices) : Mailbox ℤ where
  slot := announcement s.plugin.runUsb
  unread := s.unread
  held := s.texts.map Text.code
  delivered := s.shown.filterMap Text.code
  posted := s.announced

theorem conserved_mailbox (s : Notices) : s.mailbox.Conserved ↔ s.Conserved := by
  have hheld : s.mailbox.held.reduceOption = s.texts.filterMap Text.code := by
    rw [Notices.mailbox, List.reduceOption, List.filterMap_map]
    rfl
  rw [Mailbox.Conserved, hheld]
  rfl

/-- The message threads are those of the plugin, and each text is the one for its number. -/
structure Notices.Inv (s : Notices) : Prop where
  delayed : s.texts.length = s.plugin.delayed
  texts : ∀ t ∈ s.texts, t.Tells
  shown : ∀ t ∈ s.shown, t.Tells

theorem start_notices (model : Model) (checkbox : Bool) : (Notices.start model checkbox).Inv :=
  ⟨rfl, by simp [Notices.start], by simp [Notices.start]⟩

theorem start_conserved (model : Model) (checkbox : Bool) : (Notices.start model checkbox).Conserved :=
  (conserved_mailbox _).mp Mailbox.empty_conserved

section Steps
variable {model : Model} {s : Notices}

theorem announce_mailbox {code : ℤ} {plugin : Plugin} (h : plugin.runUsb = code) :
    (s.announce code plugin).mailbox = s.mailbox.post (announcement code) := by
  simp [Notices.announce, Notices.mailbox, Mailbox.post, h]

theorem announce_inv {code : ℤ} {plugin : Plugin} (h : s.Inv) (hdelayed : plugin.delayed = s.plugin.delayed) :
    (s.announce code plugin).Inv :=
  ⟨h.delayed.trans hdelayed.symm, h.texts, h.shown⟩

theorem handler_cases (model : Model) (e : Event) (he : e.OfHandler) :
    (∃ code, announces s.plugin e = some code ∧
        s.step model (.handler e he) = s.announce code (s.plugin.step model e)) ∨
      (announces s.plugin e = none ∧
        s.step model (.handler e he) = { s with plugin := s.plugin.step model e }) := by
  cases h : announces s.plugin e with
  | some code => exact Or.inl ⟨code, rfl, by simp [Notices.step, h]⟩
  | none => exact Or.inr ⟨rfl, by simp [Notices.step, h]⟩

theorem message_step {s : Plugin} (h : s.messages ≠ 0) :
    (s.step model .message).runUsb = s.runUsb ∧ (s.step model .message).delayed = s.delayed + 1 := by
  obtain ⟨n, hn⟩ := Nat.exists_eq_succ_of_ne_zero h
  have hrun : (messageText model s).runUsb = s.runUsb := by
    unfold messageText
    split_ifs <;> rfl
  simp [Plugin.step, hn, hrun]

theorem messageEnd_step {s : Plugin} (h : 0 < s.delayed) :
    (s.step model .messageEnd).runUsb = 0 ∧ (s.step model .messageEnd).delayed + 1 = s.delayed := by
  obtain ⟨n, hn⟩ := Nat.exists_eq_succ_of_ne_zero h.ne'
  simp [Plugin.step, hn]

theorem text_mailbox (a : TextAnswers) (h : s.plugin.messages ≠ 0) :
    (s.step model (.text a)).mailbox = s.mailbox.read := by
  simp only [Notices.step, if_neg h, Notices.mailbox, Mailbox.read, (message_step h).1, List.map_append,
    List.map_cons, List.map_nil, firstText_code]

theorem textEnd_mailbox (hs : s.Inv) {k : ℕ} {t : Text} (hk : s.texts[k]? = some t) (disconnected : Bool) :
    (s.step model (.textEnd k disconnected)).mailbox
      = s.mailbox.finish k (decide (s.plugin.TellsDevice model)) := by
  have hlt : k < s.texts.length := (List.getElem?_eq_some_iff.mp hk).1
  have hpositive : 0 < s.plugin.delayed := by
    rw [← hs.delayed]
    omega
  have htells : t.Tells := hs.texts t (List.mem_of_getElem? hk)
  have hcode := shown_code (lastText_tells model disconnected s.plugin htells)
  rw [lastText_code] at hcode
  simp only [Notices.step, hk, Notices.mailbox, Mailbox.finish, (messageEnd_step hpositive).1,
    List.filterMap_append, hcode, List.getElem?_map, Option.map_some, Option.join_some, decide_eq_true_eq,
    ← List.eraseIdx_map]
  congr 2
  split_ifs <;> rfl

theorem Notices.Inv.step (h : s.Inv) (e : NoticeEvent) : (s.step model e).Inv := by
  cases e with
  | mounted code => exact announce_inv h rfl
  | handler e he =>
    obtain ⟨code, hcode, hstep⟩ | ⟨hnone, hstep⟩ := handler_cases model e he
    · rw [hstep]
      exact announce_inv h (step_announces hcode).2
    · rw [hstep]
      exact ⟨h.delayed.trans (step_silent he hnone).delayed.symm, h.texts, h.shown⟩
  | text a =>
    by_cases hmessages : s.plugin.messages = 0
    · simp only [Notices.step, hmessages, if_true]
      exact h
    · simp only [Notices.step, hmessages, if_false]
      refine ⟨?_, ?_, h.shown⟩
      · simp [(message_step hmessages).2, h.delayed]
      · intro t ht
        rcases List.mem_append.mp ht with hold | hnew
        · exact h.texts t hold
        · rw [List.mem_singleton.mp hnew]
          exact firstText_tells model a s.plugin
  | textEnd k disconnected =>
    cases hk : s.texts[k]? with
    | none =>
      simp only [Notices.step, hk]
      exact h
    | some t =>
      have hlt : k < s.texts.length := (List.getElem?_eq_some_iff.mp hk).1
      simp only [Notices.step, hk]
      refine ⟨?_, fun u hu => h.texts u (List.mem_of_mem_eraseIdx hu), ?_⟩
      · change (s.texts.eraseIdx k).length = (s.plugin.step model .messageEnd).delayed
        have hdelayed := h.delayed
        have hend : (s.plugin.step model .messageEnd).delayed + 1 = s.plugin.delayed :=
          (messageEnd_step (by omega)).2
        rw [List.length_eraseIdx_of_lt hlt]
        omega
      · intro u hu
        rcases List.mem_append.mp hu with hold | hnew
        · exact h.shown u hold
        · split_ifs at hnew with hempty
          · cases hnew
          · rw [List.mem_singleton.mp hnew]
            exact lastText_tells model disconnected s.plugin (h.texts t (List.mem_of_getElem? hk))

/-- A step keeps the numbers together exactly when it is careful. -/
theorem step_conserved_iff (e : NoticeEvent) (hs : s.Inv) (h : s.Conserved) :
    (s.step model e).Conserved ↔ s.Careful model e := by
  have hbox : s.mailbox.Conserved := (conserved_mailbox s).mpr h
  have hpost : ∀ (code : ℤ) (plugin : Plugin), plugin.runUsb = code →
      ((s.announce code plugin).Conserved ↔ s.waiting = []) := by
    intro code plugin hcode
    rw [← conserved_mailbox, announce_mailbox hcode]
    exact Mailbox.post_conserved_iff hbox _
  cases e with
  | mounted code => exact hpost code _ rfl
  | handler e he =>
    obtain ⟨code, hcode, hstep⟩ | ⟨hnone, hstep⟩ := handler_cases model e he
    · rw [hstep, hpost code _ (step_announces hcode).1]
      simp [Notices.Careful, hcode]
    · have hrun : (s.plugin.step model e).runUsb = s.plugin.runUsb := (step_silent he hnone).runUsb
      rw [hstep]
      refine iff_of_true ?_ fun hsome => absurd hnone hsome
      simpa [Notices.Conserved, Notices.waiting, hrun] using h
  | text a =>
    by_cases hmessages : s.plugin.messages = 0
    · refine iff_of_true ?_ fun hthread => absurd hmessages hthread
      simp only [Notices.step, hmessages, if_true]
      exact h
    · rw [← conserved_mailbox, text_mailbox a hmessages, Mailbox.read_conserved_iff hbox]
      simp only [Notices.Careful, ne_eq, hmessages, not_false_eq_true, true_implies]
      rfl
  | textEnd k disconnected =>
    cases hk : s.texts[k]? with
    | none =>
      refine iff_of_true ?_ fun t ht => ?_
      · simp only [Notices.step, hk]
        exact h
      · rw [hk] at ht
        cases ht
    | some t =>
      have hheld : s.mailbox.held[k]? = some t.code := by simp [Notices.mailbox, hk]
      rw [← conserved_mailbox, textEnd_mailbox hs hk, Mailbox.finish_conserved_iff hbox hheld,
        decide_eq_true_eq]
      simp only [Notices.Careful, hk, Option.some.injEq, forall_eq']
      rfl

end Steps

/-! ## Runs -/

section Runs
variable (model : Model) (checkbox : Bool) (events : List NoticeEvent)

theorem run_notices :
    AtEveryPoint Notices.Inv (Notices.step model) (Notices.start model checkbox) events :=
  atEveryPoint_of_invariant (C := fun _ _ => True) (fun _ e h _ => h.step e) (start_notices model checkbox)
    fun _ _ _ => trivial

/-- **What the user is told.** A text that is shown for a number is the one for that number; and in exactly
the runs of careful steps every number that `run_USB` has been set to is at every point in one place: it waits
to be read, is told of by the text of one message thread or has been shown once. -/
theorem announcements_conserved_iff :
    AtEveryPoint (fun s => ∀ t ∈ s.shown, t.Tells) (Notices.step model) (Notices.start model checkbox) events ∧
      (AtEveryPoint Notices.Conserved (Notices.step model) (Notices.start model checkbox) events ↔
        EachStep (Notices.Careful model) (Notices.step model) (Notices.start model checkbox) events) := by
  refine ⟨(run_notices model checkbox events).mono fun s h => h.shown, ?_⟩
  exact atEveryPoint_iff_eachStep_within (A := fun _ _ => True) (I := fun s => s.Inv ∧ s.Conserved)
    (fun s e h _ => step_conserved_iff e h.1 h.2)
    (fun s e h _ hcareful => ⟨h.1.step e, (step_conserved_iff e h.1 h.2).mpr hcareful⟩) (fun s h => h.2)
    ⟨start_notices model checkbox, start_conserved model checkbox⟩ fun _ _ _ => trivial

end Runs

/-- A number that `mountOthersPartition` leaves in `run_USB` is lost where the next one is set right behind it, as
`onPressUSB` does. -/
theorem mounted_lost {code : ℤ} (h : announcement code = some code) (model : Model) (s : Notices) (next : ℤ) :
    ¬ EachStep (Notices.Careful model) (Notices.step model) s
      [.mounted code, .handler (.announce next) trivial] := by
  intro hcareful
  have hnext : (s.step model (.mounted code)).waiting = [] :=
    hcareful [.mounted code] _ (List.prefix_refl _) (by simp [announces])
  simp [Notices.step, Notices.announce, Notices.waiting, h] at hnext

/-! ## In USB mode -/

def Event.SelectsFtp : Event → Prop
  | .buttonLoad checkbox _ => checkbox ≠ 0
  | .toggle checkbox _ => checkbox ≠ 0
  | _ => False

def NoticeEvent.SelectsFtp : NoticeEvent → Prop
  | .handler e _ => e.SelectsFtp
  | _ => False

theorem step_usbMode {s : Plugin} (h : s.selectWifiUsb = false) {e : Event} (he : ¬ e.SelectsFtp) :
    (s.step .vita e).selectWifiUsb = false := by
  cases e with
  | press a =>
    simp only [Plugin.step, onPressFtp]
    split_ifs with hon hselect
    · exact h
    · exact absurd hselect (by simp [h])
    · exact (pressUsb_keeps a _).2.2.trans h
  | pressSelect =>
    simp only [Plugin.step, onPressSelect]
    split_ifs <;> exact h
  | buttonLoad checkbox a =>
    have hzero : checkbox = 0 := not_not.mp he
    simp only [Plugin.step, onButtonFtpLoad, hzero]
    split_ifs <;> simp_all [startThread, stopServer]
  | toggle checkbox a =>
    have hzero : checkbox = 0 := not_not.mp he
    simp only [Plugin.step, onToggleCheckBoxFtpUsb, hzero]
    split_ifs <;> simp_all [startThread, stopServer]
  | netctl eventType a => exact (netctlCb_quiet .vita eventType a s).selectWifiUsb.trans h
  | tick r cable a => exact (monitorTick_quiet r cable a s).selectWifiUsb.trans h
  | message =>
    simp only [Plugin.step]
    split
    · exact h
    · exact (messageText_quiet .vita s).selectWifiUsb.trans h
  | messageEnd =>
    simp only [Plugin.step]
    split <;> exact h
  | announce code => exact h
  | refreshing on => exact h

def deviceTexts : List CStr :=
  [bytes "VitaConnect: FTP Disable", bytes "VitaConnect: Please Connect USB Cable to PC",
    bytes "VitaConnect: USB Disable", bytes "VitaConnect: USB Connected"]

theorem deviceText_mem (disconnected : Bool) (s : Plugin) : deviceText disconnected s ∈ deviceTexts := by
  unfold deviceText deviceTexts
  split_ifs <;> simp

/-- The first letter behind `VitaConnect: `. -/
theorem userMessage_letter (selectRefresh : Bool) (nbrRefreshItem : ℤ) :
    (userMessage selectRefresh nbrRefreshItem)[13]? = some (if selectRefresh then 82 else 73) := by
  unfold userMessage
  cases selectRefresh <;> rfl

/-- The text for a number is none of those for the device. -/
theorem runUsbText_notMem {a : TextAnswers} {code : ℤ} {text : CStr} (h : runUsbText a code = some text) :
    text ∉ deviceTexts := by
  unfold runUsbText at h
  split at h
  case h_15 => cases h
  case h_13 =>
    cases h
    intro hmem
    have hletters : ∀ t ∈ deviceTexts, t[13]? ≠ some 82 ∧ t[13]? ≠ some 73 := by decide
    obtain ⟨hrefreshed, himported⟩ := hletters _ hmem
    rw [userMessage_letter] at hrefreshed himported
    split_ifs at hrefreshed himported
    · exact hrefreshed rfl
    · exact himported rfl
  all_goals
    cases h
    decide

/-- FTP is not selected, and every text that has been shown is one for the device. -/
structure Notices.Untold (s : Notices) : Prop where
  selectWifiUsb : s.plugin.selectWifiUsb = false
  shown : ∀ t ∈ s.shown, t.text ∈ deviceTexts

theorem Notices.Untold.step {s : Notices} (h : s.Untold) {e : NoticeEvent} (he : ¬ e.SelectsFtp) :
    (s.step .vita e).Untold := by
  cases e with
  | mounted code => exact ⟨h.selectWifiUsb, h.shown⟩
  | handler e hof =>
    have husb := step_usbMode h.selectWifiUsb he
    obtain ⟨code, -, hstep⟩ | ⟨-, hstep⟩ := handler_cases .vita e hof
    · rw [hstep]
      exact ⟨husb, h.shown⟩
    · rw [hstep]
      exact ⟨husb, h.shown⟩
  | text a =>
    simp only [Notices.step]
    split_ifs
    · exact h
    · exact ⟨step_usbMode h.selectWifiUsb (e := .message) not_false, h.shown⟩
  | textEnd k disconnected =>
    simp only [Notices.step]
    split
    · exact h
    · refine ⟨step_usbMode h.selectWifiUsb (e := .messageEnd) not_false, ?_⟩
      have hdevice : s.plugin.TellsDevice .vita := ⟨rfl, h.selectWifiUsb⟩
      rw [lastText, if_pos hdevice]
      intro t ht
      rcases List.mem_append.mp ht with hold | hnew
      · exact h.shown t hold
      · split_ifs at hnew with hempty
        · cases hnew
        · rw [List.mem_singleton.mp hnew]
          exact deviceText_mem disconnected s.plugin

/-- **In USB mode nothing is announced.** On a handheld console that starts in USB mode and on which FTP is
never selected, none of the texts for a number in `run_USB` is ever shown, whatever the number is set to: a text
for the device takes the place of each. -/
theorem usbMode_announces_nothing (events : List NoticeEvent)
    (h : EachStep (fun _ e => ¬ e.SelectsFtp) (Notices.step .vita) (Notices.start .vita false) events) :
    AtEveryPoint (fun s => ∀ t ∈ s.shown, ∀ a code, runUsbText a code ≠ some t.text) (Notices.step .vita)
      (Notices.start .vita false) events := by
  have huntold : AtEveryPoint Notices.Untold (Notices.step .vita) (Notices.start .vita false) events :=
    atEveryPoint_of_invariant (fun s e hs he => hs.step he) ⟨rfl, by simp [Notices.start]⟩ h
  exact huntold.mono fun s hs t ht a code hcode => runUsbText_notMem hcode (hs.shown t ht)

/-- The refresh thread has ended with three items, and what is shown is that the cable is connected. -/
theorem usbMode_hides_refreshed :
    AtEveryPoint (fun s => ∀ t ∈ s.shown, ∀ a code, runUsbText a code ≠ some t.text) (Notices.step .vita)
      (Notices.start .vita false)
      [.handler (.announce 13) trivial, .text ⟨[], 1337, true, 3⟩, .textEnd 0 false] :=
  usbMode_announces_nothing _ (eachStep_cons not_false (eachStep_cons not_false (eachStep_cons not_false
    eachStep_nil)))

end VitaConnect.Modes
